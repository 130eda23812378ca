/-
Every place that the keyboard microcontroller reaches for in a run is there, and a walk over the
ring comes to its end.
-/
import GSSquared.Adb.Bounds

set_option linter.all false

namespace GSSquared.Adb.KeyGloo

open Bits

/-- The places that a walk over the ring goes through from `i` on, up to its end. -/
def walk (outpt : Nat) : Nat → Nat → Option (List Nat)
  | 0, _ => none
  | fuel + 1, i => if i = outpt then some [] else (walk outpt fuel (after i)).map (i :: ·)

theorem walk_ends {outpt : Nat} (ho : outpt < 16) : ∀ (fuel i : Nat), i < 16 → (outpt + 16 - i) % 16 < fuel →
    ∃ places, walk outpt fuel i = some places ∧ ∀ j ∈ places, j < 16 := by
  intro fuel
  induction fuel with
  | zero => intro i _ hfuel; exact absurd hfuel (Nat.not_lt_zero _)
  | succ fuel ih =>
    intro i hi hfuel
    unfold walk
    by_cases hend : i = outpt
    · rw [if_pos hend]
      exact ⟨[], rfl, fun _ hj => absurd hj List.not_mem_nil⟩
    · have hnear : (outpt + 16 - after i) % 16 < fuel := by
        unfold after
        omega
      obtain ⟨places, hwalk, hplaces⟩ := ih (after i) (after_lt i) hnear
      rw [if_neg hend, hwalk]
      exact ⟨i :: places, rfl, List.forall_mem_cons.mpr ⟨hi, hplaces⟩⟩

theorem walk_none {outpt : Nat} (ho : 16 ≤ outpt) : ∀ (fuel i : Nat), i ≠ outpt → walk outpt fuel i = none := by
  intro fuel
  induction fuel with
  | zero => intro i _; rfl
  | succ fuel ih =>
    intro i hi
    have hnext : after i ≠ outpt := Nat.ne_of_lt (Nat.lt_of_lt_of_le (after_lt i) ho)
    rw [walk, if_neg hi, ih _ hnext]
    rfl

theorem Ring.walk_ends {s : KeyGloo} (hs : s.Ring) :
    ∃ places, walk s.outpt 16 s.inpt = some places ∧ ∀ j ∈ places, j < 16 :=
  KeyGloo.walk_ends hs.outpt 16 s.inpt hs.inpt (Nat.mod_lt _ (Nat.zero_lt_succ 15))

/-- What a command may do: its answer is in `response`, and what is reached for is there. -/
structure Executed (s t : KeyGloo) : Prop where
  sized : s.host.Sized → t.host.Sized
  ring : s.Ring → t.Ring
  log : s.Ring → s.host.Sized → ∃ extra, t.log = s.log ++ extra ∧ ∀ a ∈ extra, a.InRange
  response : s.responseIndex + s.responseBytes ≤ 16 → t.responseIndex + t.responseBytes ≤ 16

section

variable {s t u : KeyGloo}

namespace Steady

theorem response_eq (h : Steady s t) : t.responseIndex = s.responseIndex ∧ t.responseBytes = s.responseBytes :=
  ⟨congrArg (fun c => c.2.2.2.1) h.counters, congrArg (fun c => c.2.2.2.2) h.counters⟩

theorem readUcMemory (c : Config) (addr : Nat) : Steady s (s.readUcMemory c addr).2 := by
  unfold KeyGloo.readUcMemory
  split
  · exact touch (fun _ _ => ‹addr < 96›)
  split
  · exact refl s
  · exact refl s

theorem executed (h : Steady s t) : Executed s t where
  sized := h.sized
  ring := h.ring
  log := h.log
  response hs := by
    rw [h.response_eq.1, h.response_eq.2]
    exact hs

end Steady

namespace Executed

theorem trans (hst : Executed s t) (htu : Executed t u) : Executed s u where
  sized h := htu.sized (hst.sized h)
  ring h := htu.ring (hst.ring h)
  log hring hsized := by
    obtain ⟨xs, hxs, hin⟩ := hst.log hring hsized
    obtain ⟨ys, hys, hin'⟩ := htu.log (hst.ring hring) (hst.sized hsized)
    exact ⟨xs ++ ys, by rw [hys, hxs, List.append_assoc], List.forall_mem_append.mpr ⟨hin, hin'⟩⟩
  response h := htu.response (hst.response h)

theorem counted (hhost : t.host = s.host) (hring : s.Ring → t.Ring) (hlog : t.log = s.log)
    (hresponse : s.responseIndex + s.responseBytes ≤ 16 → t.responseIndex + t.responseBytes ≤ 16) : Executed s t where
  sized h := by rw [hhost]; exact h
  ring := hring
  log _ _ := ⟨[], by rw [hlog, List.append_nil], fun _ ha => absurd ha List.not_mem_nil⟩
  response := hresponse

theorem abort : Executed s s.abort := counted rfl (fun h => ⟨h.inpt, h.outpt⟩) rfl (fun _ => Nat.zero_le 16)

theorem reset : Executed s s.reset :=
  counted rfl (fun _ => ⟨Nat.zero_lt_succ 15, Nat.zero_lt_succ 15⟩) rfl (fun _ => Nat.zero_le 16)

theorem flush : Executed s s.flush := abort.trans Steady.flushBuffer.executed

theorem synchModes (modes : Byte) : Executed s (s.synchModes modes) := by
  have hmodes : Steady s { s with modesByte := modes } := Steady.quiet rfl rfl rfl rfl rfl
  unfold KeyGloo.synchModes
  split
  · exact hmodes.executed
  · exact (hmodes.trans Steady.flushKeyQueue).executed

theorem clearModes (modes : Byte) : Executed s (s.clearModes modes) := by
  have hmodes : ∀ u : KeyGloo, Steady u { u with modesByte := u.modesByte &&& ~~~modes } :=
    fun _ => Steady.quiet rfl rfl rfl rfl rfl
  unfold KeyGloo.clearModes
  split
  · exact (Steady.flushKeyQueue.trans (hmodes _)).executed
  · exact (hmodes _).executed

theorem setConfiguration (b0 b1 b2 : Byte) : Executed s (s.setConfiguration b0 b1 b2) := by
  have hbytes : Steady s { s with configurationBytes := (b0, b1, b2) } := Steady.quiet rfl rfl rfl rfl rfl
  have hlang : ∀ u : KeyGloo, Steady u (u.poke atLang (b1 &&& 0x0F)) := fun _ => Steady.poke (by decide) (by decide)
  have hrepeat : ∀ u : KeyGloo, Steady u (u.poke atDlyrpt b2) := fun _ => Steady.poke (by decide) (by decide)
  exact (((hbytes.trans (hlang _)).trans (hrepeat _)).trans (Steady.poke (by decide) (by decide))).executed

theorem answer {bytes : List Byte} (hbytes : s.responseIndex + bytes.length ≤ 16) : Executed s (s.answer bytes) := by
  have htouch : Steady s (s.touchAll ((List.range bytes.length).map .response)) := by
    apply Steady.touchAll
    intro _ _ a ha
    obtain ⟨i, hi, rfl⟩ := List.mem_map.mp ha
    have hlt : i < bytes.length := List.mem_range.mp hi
    show i < 16
    omega
  apply htouch.executed.trans
  exact counted rfl (fun h => ⟨h.inpt, h.outpt⟩) rfl (fun _ => hbytes)

theorem answerWith (r : Register) (hs : s.responseIndex = 0) : Executed s (s.answerWith r) := by
  have hbytes : s.responseIndex + [r.data 0, r.data 1].length ≤ 16 := by
    rw [hs]
    exact Nat.le_of_ble_eq_true rfl
  exact (answer hbytes).trans (counted rfl (fun h => ⟨h.inpt, h.outpt⟩) rfl (fun h => h))

theorem writeUcMemory {addr : Nat} {value : Byte} (hclear : addr = atInpt ∨ addr = atOutpt → value.toNat < 16) :
    Executed s (s.writeUcMemory addr value) := by
  unfold KeyGloo.writeUcMemory
  split
  case isFalse => exact (Steady.refl s).executed
  case isTrue haddr =>
    apply (Steady.touch (a := .ram addr) (fun _ _ => haddr)).executed.trans
    have hends : (s.touch (.ram addr)).Ring → ((s.touch (.ram addr)).poke addr value).Ring := by
      intro hring
      constructor
      · show (if atInpt = addr then value else s.ram atInpt).toNat < 16
        split
        · exact hclear (.inl (Eq.symm ‹_›))
        · exact hring.inpt
      · show (if atOutpt = addr then value else s.ram atOutpt).toNat < 16
        split
        · exact hclear (.inr (Eq.symm ‹_›))
        · exact hring.outpt
    exact counted rfl hends rfl (fun h => h)

theorem listen (addr : Byte) (reg : Nat) {msg : Register} (hmsg : msg.size ≤ 8) : Executed s (s.listen addr reg msg) where
  sized h := h.listen hmsg
  ring h := ⟨h.inpt, h.outpt⟩
  log _ _ := ⟨[], (List.append_nil _).symm, fun _ ha => absurd ha List.not_mem_nil⟩
  response h := h

theorem host {h : Host} (hsized : s.host.Sized → h.Sized) : Executed s { s with host := h } where
  sized := hsized
  ring hring := ⟨hring.inpt, hring.outpt⟩
  log _ _ := ⟨[], (List.append_nil _).symm, fun _ ha => absurd ha List.not_mem_nil⟩
  response hr := hr

theorem setDeviceSrq (addr : Byte) (enable : Bool) : Executed s (s.setDeviceSrq addr enable) := by
  unfold KeyGloo.setDeviceSrq
  split
  · exact host (fun h => h.setSrqEnable addr enable)
  · exact counted rfl (fun h => ⟨h.inpt, h.outpt⟩) rfl (fun h => h)

theorem transmit {num : Nat} (hnum : num < 8) (hs : s.responseIndex = 0) : Executed s (s.transmit num) := by
  have htouch : Steady s
      (s.touchAll ((List.range (num - 1)).flatMap (fun i => [.registerData i, .cmd (2 + i)]))) := by
    apply Steady.touchAll
    intro _ _ a ha
    obtain ⟨i, hi, ha⟩ := List.mem_flatMap.mp ha
    have hlt : i < num - 1 := List.mem_range.mp hi
    rcases List.mem_cons.mp ha with rfl | ha
    · show i < 8
      omega
    · rw [List.mem_singleton.mp ha]
      show 2 + i < 8
      omega
  unfold KeyGloo.transmit
  dsimp only
  split
  · exact htouch.executed.trans (host (fun h => h.reset))
  · exact htouch.executed.trans (host (fun h => h.flush _))
  · apply htouch.executed.trans
    apply listen
    show num - 1 ≤ 8
    omega
  · have htalk := htouch.executed.trans (Steady.talk (s.cmd 1 >>> 4) (s.cmd 1 &&& 0x03).toNat
      { size := 0, data := fun _ => 0 }).executed
    split
    · exact htalk.trans (answerWith _ hs)
    · exact htalk

theorem poll (addr : Byte) (reg : Nat) (hsized : s.host.Sized) (hs : s.responseIndex = 0) : Executed s (s.poll addr reg) := by
  have htalk := Steady.talk (s := s) addr reg (.pair 0xFF 0xFF)
  unfold KeyGloo.poll
  split
  case isTrue => exact answerWith _ hs
  case isFalse hanswers =>
    split
    · have hsize := (hsized.talk addr reg (.pair 0xFF 0xFF)).2 ((Bool.not_eq_false _).mp hanswers)
      have hmodifiers := htalk.trans (Steady.updateModifiersFromReg hsize)
      exact hmodifiers.executed.trans (answerWith _ (hmodifiers.response_eq.1.trans hs))
    · exact htalk.executed.trans (answerWith _ hs)

theorem controlCommand (c : Config) (hs : s.responseIndex = 0)
    (hclear : s.cmd 0 = 0x08 → s.cmd 1 = 0x16 ∨ s.cmd 1 = 0x17 → (s.cmd 2).toNat < 16) :
    Executed s (s.controlCommand c) := by
  have hfits : ∀ bytes : List Byte, bytes.length ≤ 16 → Executed s (s.answer bytes) := by
    intro bytes hbytes
    apply answer
    rw [hs]
    omega
  unfold KeyGloo.controlCommand
  split
  · exact abort.trans Steady.updateInterruptStatus.executed
  · exact reset.trans Steady.updateInterruptStatus.executed
  · exact flush.trans Steady.updateInterruptStatus.executed
  · exact counted rfl (fun h => ⟨h.inpt, h.outpt⟩) rfl (fun h => h)
  · exact clearModes _
  · exact setConfiguration _ _ _
  · exact reset.trans ((synchModes _).trans (setConfiguration _ _ _))
  case h_8 hwrite =>
    apply writeUcMemory
    intro hends
    apply hclear (BitVec.eq_of_toNat_eq hwrite)
    rcases hends with h | h
    · exact .inl (BitVec.eq_of_toNat_eq h)
    · exact .inr (BitVec.eq_of_toNat_eq h)
  · have hread : Steady s (s.readUcMemory c ((s.cmd 1).toNat + 256 * (s.cmd 2).toNat)).2 := Steady.readUcMemory c _
    apply hread.executed.trans
    apply answer
    rw [hread.response_eq.1, hs]
    exact Nat.le_of_ble_eq_true rfl
  · exact hfits _ (Nat.le_of_ble_eq_true rfl)
  · exact hfits _ (Nat.le_of_ble_eq_true rfl)
  · exact (hfits _ (Nat.le_of_ble_eq_true rfl)).trans (counted rfl (fun h => ⟨h.inpt, h.outpt⟩) rfl (fun h => h))
  · exact hfits _ (Nat.le_of_ble_eq_true rfl)
  · exact hfits _ (Nat.le_of_ble_eq_true rfl)
  · exact hfits _ (Nat.le_of_ble_eq_true rfl)
  · exact counted rfl (fun h => ⟨h.inpt, h.outpt⟩) rfl (fun h => h)
  · exact ((Steady.mapped _ _).trans (Steady.storeKeyToBuffer c _ _)).executed
  · exact (Steady.refl s).executed

theorem deviceCommand (hs : s.responseIndex = 0) : Executed s s.deviceCommand := by
  unfold KeyGloo.deviceCommand
  dsimp only
  split
  · exact host (fun h => h.reset)
  split
  · exact (Steady.refl s).executed
  split
  · have hnum : ∀ b : Byte, (b &&& 0x07).toNat < 8 := by decide
    exact transmit (hnum _) hs
  split
  · exact setDeviceSrq _ true
  split
  · exact host (fun h => h.flush _)
  split
  · exact setDeviceSrq _ false
  · exact (Steady.refl s).executed

theorem command (c : Config) (hsized : s.host.Sized) (hs : s.responseIndex = 0)
    (hclear : s.cmd 0 = 0x08 → s.cmd 1 = 0x16 ∨ s.cmd 1 = 0x17 → (s.cmd 2).toNat < 16) :
    Executed s (s.command c) := by
  unfold KeyGloo.command
  dsimp only
  split
  · exact controlCommand c hs hclear
  · exact deviceCommand hs
  · exact listen _ _ (Nat.le_of_ble_eq_true rfl)
  · exact poll _ _ hsized hs

theorem answered (s : KeyGloo) : Executed s s.answered := counted rfl (fun h => ⟨h.inpt, h.outpt⟩) rfl (fun h => h)

theorem executeCommand (c : Config) (hsized : s.host.Sized)
    (hclear : s.cmd 0 = 0x08 → s.cmd 1 = 0x16 ∨ s.cmd 1 = 0x17 → (s.cmd 2).toNat < 16) :
    Executed s (s.executeCommand c) := by
  have hbegin : Executed s { s with responseBytes := 0, responseIndex := 0 } :=
    counted rfl (fun h => ⟨h.inpt, h.outpt⟩) rfl (fun _ => Nat.zero_le 16)
  have hcommand := hbegin.trans (command c (s := { s with responseBytes := 0, responseIndex := 0 }) hsized rfl hclear)
  exact hcommand.trans (answered _)

theorem takeCommandByte (value : Byte) (hindex : s.cmdIndex < 8) : Executed s (s.takeCommandByte value) := by
  unfold KeyGloo.takeCommandByte
  split
  · apply (Steady.touch (a := .cmd s.cmdIndex) (fun _ _ => hindex)).executed.trans
    exact counted rfl (fun h => ⟨h.inpt, h.outpt⟩) rfl (fun h => h)
  · exact (Steady.refl s).executed

end Executed

def Waiting (s : KeyGloo) : Prop :=
  (s.cmdIndex = 0 ∧ s.cmdBytes = 1) ∨
    (1 ≤ s.cmdIndex ∧ 1 ≤ s.cmdBytes ∧ s.cmdIndex + s.cmdBytes = 1 + (argumentBytes (s.cmd 0)).getD 0)

theorem argumentBytes_le (b : Byte) : (argumentBytes b).getD 0 ≤ 7 := by
  revert b
  decide +kernel

theorem Waiting.fits (hs : s.Waiting) : s.cmdIndex < 8 ∧ 0 < s.cmdBytes := by
  have hle := argumentBytes_le (s.cmd 0)
  unfold Waiting at hs
  omega

structure Safe (s : KeyGloo) : Prop where
  ring : s.Ring
  sized : s.host.Sized
  inRange : ∀ a ∈ s.log, a.InRange
  response : s.responseIndex + s.responseBytes ≤ 16
  waiting : s.Waiting

theorem Executed.safe (h : Executed s t) (hs : s.Safe) (hwaiting : t.Waiting) : t.Safe where
  ring := h.ring hs.ring
  sized := h.sized hs.sized
  inRange := by
    obtain ⟨extra, hlog, hextra⟩ := h.log hs.ring hs.sized
    rw [hlog]
    exact List.forall_mem_append.mpr ⟨hs.inRange, hextra⟩
  response := h.response hs.response
  waiting := hwaiting

theorem Steady.waiting (h : Steady s t) (hs : s.Waiting) : t.Waiting := by
  have hcmd : t.cmd = s.cmd := congrArg (fun c => c.1) h.counters
  have hindex : t.cmdIndex = s.cmdIndex := congrArg (fun c => c.2.1) h.counters
  have hbytes : t.cmdBytes = s.cmdBytes := congrArg (fun c => c.2.2.1) h.counters
  unfold Waiting
  rw [hcmd, hindex, hbytes]
  exact hs

theorem Steady.safe (h : Steady s t) (hs : s.Safe) : t.Safe := h.executed.safe hs (h.waiting hs.waiting)

theorem Safe.readDataRegister (hs : s.Safe) : s.readDataRegister.2.Safe := by
  unfold KeyGloo.readDataRegister
  split
  · exact Steady.safe (s := s) (Steady.quiet rfl rfl rfl rfl rfl) hs
  split
  case isTrue hbytes =>
    have htouch : Steady s (s.touch (.response s.responseIndex)) := by
      apply Steady.touch
      intro _ _
      have hfits := hs.response
      show s.responseIndex < 16
      omega
    have hnext : s.responseIndex + s.responseBytes ≤ 16 → s.responseIndex + 1 + (s.responseBytes - 1) ≤ 16 := by
      omega
    refine Executed.safe (htouch.executed.trans ?_) hs hs.waiting
    exact Executed.counted rfl (fun h => ⟨h.inpt, h.outpt⟩) rfl hnext
  case isFalse hbytes =>
    have hnone : s.responseIndex + s.responseBytes ≤ 16 → 0 + s.responseBytes ≤ 16 := by
      omega
    have hempty : Executed s (updateDataRegisterFull { s with responseIndex := 0 }).updateInterruptStatus :=
      .counted rfl (fun h => ⟨h.inpt, h.outpt⟩) rfl hnone
    exact hempty.safe hs hs.waiting

/-- A byte is the next of the command, and the bytes left are those that its first one asks for. -/
structure Taken (value : Byte) (s t : KeyGloo) : Prop where
  executed : Executed s t
  cmd : t.cmd = fun i => if i = s.cmdIndex then value else s.cmd i
  index : t.cmdIndex = s.cmdIndex + 1
  bytes : t.cmdIndex + t.cmdBytes = 1 + (argumentBytes (t.cmd 0)).getD 0

theorem Waiting.taken (hs : s.Waiting) (value : Byte) :
    Taken value s (s.received value) := by
  obtain ⟨hindex, hbytes⟩ := hs.fits
  have htake : s.takeCommandByte value =
      { s.touch (.cmd s.cmdIndex) with
        cmd := fun i => if i = s.cmdIndex then value else s.cmd i
        cmdIndex := s.cmdIndex + 1
        cmdBytes := s.cmdBytes - 1 } := if_pos hbytes
  have hexecuted := Executed.takeCommandByte value hindex
  unfold received
  rcases hs with ⟨hzero, hone⟩ | ⟨hsome, _, hcount⟩
  · have hargs : (s.takeCommandByte value).countArguments value =
        { s.takeCommandByte value with cmdBytes := (argumentBytes value).getD (s.takeCommandByte value).cmdBytes } := by
      apply if_pos
      rw [htake]
      exact congrArg (· + 1) hzero
    rw [hargs]
    refine ⟨hexecuted.trans (.counted rfl (fun h => ⟨h.inpt, h.outpt⟩) rfl (fun h => h)), ?_, ?_, ?_⟩
    · rw [htake]
    · rw [htake]
    · rw [htake]
      show s.cmdIndex + 1 + (argumentBytes value).getD (s.cmdBytes - 1) =
        1 + (argumentBytes (if 0 = s.cmdIndex then value else s.cmd 0)).getD 0
      rw [hzero, hone, if_pos rfl]
  · have hargs : (s.takeCommandByte value).countArguments value = s.takeCommandByte value := by
      apply if_neg
      rw [htake]
      show s.cmdIndex + 1 ≠ 1
      omega
    rw [hargs]
    refine ⟨hexecuted, ?_, ?_, ?_⟩
    · rw [htake]
    · rw [htake]
    · rw [htake]
      show s.cmdIndex + 1 + (s.cmdBytes - 1) = 1 + (argumentBytes (if 0 = s.cmdIndex then value else s.cmd 0)).getD 0
      rw [if_neg (Nat.ne_of_lt hsome)]
      omega

theorem Safe.writeCmdRegister (c : Config) {value : Byte} (hs : s.Safe)
    (hclear : s.cmd 0 = 0x08 → s.cmdIndex = 2 → s.cmd 1 = 0x16 ∨ s.cmd 1 = 0x17 → value.toNat < 16) :
    (s.writeCmdRegister c value).Safe := by
  have htaken := hs.waiting.taken value
  unfold KeyGloo.writeCmdRegister
  generalize s.received value = t at htaken
  dsimp only
  split
  case isFalse hbytes =>
    apply htaken.executed.safe hs
    have hindex := htaken.index
    exact .inr ⟨by omega, Nat.pos_of_ne_zero hbytes, htaken.bytes⟩
  case isTrue hbytes =>
    have hwrite : t.cmd 0 = 0x08 → t.cmd 1 = 0x16 ∨ t.cmd 1 = 0x17 → (t.cmd 2).toNat < 16 := by
      intro hcommand hends
      have hindex : s.cmdIndex = 2 := by
        have hargs : (argumentBytes (t.cmd 0)).getD 0 = 2 := by
          rw [hcommand]
          rfl
        have hcount := htaken.bytes
        have hnext := htaken.index
        omega
      rw [htaken.cmd, hindex] at hcommand hends ⊢
      exact hclear hcommand hindex hends
    apply (htaken.executed.trans (Executed.executeCommand c (htaken.executed.sized hs.sized) hwrite)).trans _ |>.safe hs
    · exact .inl ⟨rfl, rfl⟩
    · exact .counted rfl (fun h => ⟨h.inpt, h.outpt⟩) rfl (fun h => h)

theorem Safe.processKey (c : Config) {scancode : Nat} {up again : Bool} {stack : Register} (hs : s.Safe)
    (hclear : again = false → s.autoPollEnabled = true → s.host.answers 0x02 = true) :
    (s.processKey c scancode up again stack).Safe := by
  have henqueued : Steady s (s.enqueued c scancode up) := Steady.enqueued c scancode up
  have hrequest : ∀ u : KeyGloo, Steady u u.requestService := fun _ => Steady.quiet rfl rfl rfl rfl rfl
  unfold KeyGloo.processKey
  by_cases hagain : again = true
  · rw [if_pos hagain]
    exact hs
  rw [if_neg hagain]
  dsimp only
  split
  case isTrue hpoll =>
    have htalk := henqueued.trans (Steady.talk (s := s.enqueued c scancode up) 0x02 0 stack)
    have hanswers : (s.enqueued c scancode up).host.answers 0x02 = true := by
      show ((s.host.keyboard.processEvent _).id == 0x02 || s.host.mouse.id == 0x02) = true
      rw [Keyboard.id_processEvent]
      exact hclear ((Bool.not_eq_true _).mp hagain) hpoll
    have hsize := ((henqueued.sized hs.sized).talk 0x02 0 stack).2 hanswers
    exact (htalk.trans (Steady.autoPolled c hsize)).safe hs
  case isFalse => exact (henqueued.trans (hrequest _)).safe hs

def Op.Clear (s : KeyGloo) : Op → Prop
  | .writeC026 value => s.cmd 0 = 0x08 → s.cmdIndex = 2 → s.cmd 1 = 0x16 ∨ s.cmd 1 = 0x17 → value.toNat < 16
  | .key _ _ again _ => again = false → s.autoPollEnabled = true → s.host.answers 0x02 = true
  | _ => True

theorem Safe.step (c : Config) (op : Op) (hclear : op.Clear s) (hs : s.Safe) : (step c s op).Safe := by
  cases op with
  | readC000 => exact hs
  | readC010 => exact Steady.writeKeyStrobe.safe hs
  | writeC010 => exact Steady.writeKeyStrobe.safe hs
  | readC024 =>
    show s.readMouseData.2.Safe
    unfold readMouseData
    split
    · exact Steady.safe (s := s) (Steady.quiet rfl rfl rfl rfl rfl) hs
    · exact Steady.safe (s := s) (Steady.quiet rfl rfl rfl rfl rfl) hs
  | readC025 => exact hs
  | readC026 => exact hs.readDataRegister
  | writeC026 value => exact hs.writeCmdRegister c hclear
  | readC027 => exact hs
  | writeC027 value => exact Steady.safe (s := s) (Steady.quiet rfl rfl rfl rfl rfl) hs
  | key scancode up again stack => exact hs.processKey c hclear
  | paste text => exact Steady.safe (s := s) (Steady.quiet rfl rfl rfl rfl rfl) hs
  | frame => exact (Steady.frameHandler c).safe hs
  | reset cold =>
    show (reset (if cold then s.poke 0x51 0 else s)).Safe
    split
    · exact Executed.reset.safe (Steady.safe (Steady.poke (by decide) (by decide)) hs) (.inl ⟨rfl, rfl⟩)
    · exact Executed.reset.safe hs (.inl ⟨rfl, rfl⟩)

theorem powerOn_safe : powerOn.Safe where
  ring := ⟨Nat.zero_lt_succ 15, Nat.zero_lt_succ 15⟩
  sized := Host.sized_init
  inRange _ ha := absurd ha List.not_mem_nil
  response := Nat.zero_le 16
  waiting := .inl ⟨rfl, rfl⟩

/-- Every place that is reached for in a run is there, and a walk over the ring comes to its end. -/
theorem indices_inside (c : Config) (ops : List Op) (hclear : Machine.Guarded (step c) Op.Clear powerOn ops) :
    (∀ a ∈ (Machine.run (step c) powerOn ops).log, a.InRange) ∧
      ∃ places, walk (Machine.run (step c) powerOn ops).outpt 16 (Machine.run (step c) powerOn ops).inpt = some places ∧
        ∀ j ∈ places, j < 16 := by
  have hsafe := Machine.Guarded.invariant (fun _ op hop hs => hs.step c op hop) ops powerOn hclear powerOn_safe
  exact ⟨hsafe.inRange, hsafe.ring.walk_ends⟩

def placing (place : Byte) : List Op :=
  [.writeC026 0x04, .writeC026 0x10, .writeC026 0x08, .writeC026 0x17, .writeC026 place]

def pressing : Op := .key 4 false false noKey

theorem placing_inside :
    Machine.Guarded (step plain) Op.Clear powerOn (placing 15 ++ [pressing]) ∧
      (∀ a ∈ (Machine.run (step plain) powerOn (placing 15 ++ [pressing])).log, a.InRange) ∧
        ∃ places,
          walk (Machine.run (step plain) powerOn (placing 15 ++ [pressing])).outpt 16
              (Machine.run (step plain) powerOn (placing 15 ++ [pressing])).inpt = some places ∧
            ∀ j ∈ places, j < 16 := by
  have hkey : ∀ s : KeyGloo, s.host.answers 0x02 = true → Op.Clear s pressing := fun _ hanswers _ _ => hanswers
  have hmodes : ∀ value, Op.Clear powerOn (.writeC026 value) := fun _ hcommand => absurd hcommand (by decide)
  have hguard : Machine.Guarded (step plain) Op.Clear powerOn (placing 15 ++ [pressing]) :=
    ⟨hmodes _, fun h => absurd h (by decide +kernel), fun _ h => absurd h (by decide +kernel),
      fun _ h => absurd h (by decide +kernel), fun _ _ _ => by decide, hkey _ (by decide +kernel), trivial⟩
  exact ⟨hguard, indices_inside plain _ hguard⟩

/-- The end of the ring is written with 32: a walk does not come to it, and the next key goes there. -/
theorem reaches_past :
    (∀ fuel, walk (Machine.run (step plain) powerOn (placing 32)).outpt fuel
        (Machine.run (step plain) powerOn (placing 32)).inpt = none) ∧
      Touch.keyCodes 32 ∈ (Machine.run (step plain) powerOn (placing 32 ++ [pressing])).log ∧
        ¬ (Touch.keyCodes 32).InRange := by
  have houtpt : (Machine.run (step plain) powerOn (placing 32)).outpt = 32 := by decide +kernel
  have hinpt : (Machine.run (step plain) powerOn (placing 32)).inpt = 0 := by decide +kernel
  refine ⟨fun fuel => ?_, by decide +kernel, Nat.not_lt.mpr (Nat.le_of_ble_eq_true rfl)⟩
  rw [houtpt, hinpt]
  exact walk_none (by decide) fuel 0 (by decide)

end

end GSSquared.Adb.KeyGloo
