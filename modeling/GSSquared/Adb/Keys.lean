/-
The keys of a run: what a key of the host stores, and that nothing else loses or repeats one.
-/
import GSSquared.Adb.Once

set_option linter.all false

namespace GSSquared.Adb.KeyGloo

open Bits

section

variable {s t u : KeyGloo}

/-! ### What leaves the keys alone -/

structure Quiet (s t : KeyGloo) : Prop where
  desk : t.desk = s.desk
  modes : t.modesByte = s.modesByte
  idle : s.host.Idle → t.host.Idle
  keysdown : t.keysdown = s.keysdown

namespace Quiet

theorem trans (hst : Quiet s t) (htu : Quiet t u) : Quiet s u where
  desk := htu.desk.trans hst.desk
  modes := htu.modes.trans hst.modes
  idle h := htu.idle (hst.idle h)
  keysdown := htu.keysdown.trans hst.keysdown

theorem still (hdesk : t.desk = s.desk) (hmodes : t.modesByte = s.modesByte) (hhost : t.host = s.host)
    (hkeysdown : t.keysdown = s.keysdown) : Quiet s t where
  desk := hdesk
  modes := hmodes
  idle h := by rw [hhost]; exact h
  keysdown := hkeysdown

theorem refl (s : KeyGloo) : Quiet s s := still rfl rfl rfl rfl

theorem told (h : Quiet s t) (hs : s.Told) : t.Told :=
  hs.of_desk h.desk (fun henabled => by rw [keyboardBufferEnabled, h.modes]; exact henabled)

theorem stored (h : Quiet s t) : t.history.stored = s.history.stored :=
  congrArg (fun d => d.2.2.2.2.2.2.stored) h.desk

theorem poke {i : Nat} (value : Byte) (hi : i ≠ atInpt) (ho : i ≠ atOutpt) : Quiet s (s.poke i value) := by
  have hother : ∀ j, i ≠ j → (s.poke i value).ram j = s.ram j := fun j hj => if_neg (Ne.symm hj)
  refine still ?_ rfl rfl rfl
  unfold KeyGloo.desk inpt outpt
  rw [hother _ hi, hother _ ho]
  rfl

theorem talk (addr : Byte) (reg : Nat) (msg : Register) : Quiet s (s.talk addr reg msg).2 where
  desk := rfl
  modes := rfl
  idle h := h.talk addr reg msg
  keysdown := rfl

theorem listen (addr : Byte) (reg : Nat) (msg : Register) : Quiet s (s.listen addr reg msg) where
  desk := rfl
  modes := rfl
  idle h := h.listen addr reg msg
  keysdown := rfl

theorem updateModifier {keycode : Byte} {down : Bool} (h : s.updateModifier keycode down = some t) : Quiet s t := by
  obtain rfl | ⟨k, value, rfl⟩ := updateModifier_cases h
  · exact refl t
  · exact (poke _ (by decide) (by decide)).trans (poke _ (by decide) (by decide))

theorem updateModifiersAt (r : Register) : ∀ (places : List Nat) (s : KeyGloo),
    Quiet s (KeyGloo.updateModifiersAt r places s).2 := by
  intro places
  induction places with
  | nil => intro s; exact refl s
  | cons i places ih =>
    intro s
    have htouch : Quiet s (s.touch (.registerData i)) := still rfl rfl rfl rfl
    unfold KeyGloo.updateModifiersAt
    dsimp only
    split
    case h_1 t hsome => exact htouch.trans (updateModifier hsome)
    case h_2 => exact htouch.trans (ih _)

theorem host {h : Host} (hidle : s.host.Idle → h.Idle) : Quiet s { s with host := h } where
  desk := rfl
  modes := rfl
  idle := hidle
  keysdown := rfl

theorem answerWith (r : Register) : Quiet s (s.answerWith r) := still rfl rfl rfl rfl

theorem answered (s : KeyGloo) : Quiet s s.answered := still rfl rfl rfl rfl

theorem touched (x : Touch) : Quiet s (s.touch x) := still rfl rfl rfl rfl

end Quiet

/-! ### Commands -/

def clearsKeys (command : Byte) : Bool := command == 0x02 || command == 0x03 || command == 0x07

structure Passes (clears : Bool) (s t : KeyGloo) : Prop where
  told : s.Told → t.Told
  idle : s.host.Idle → t.host.Idle
  keysdown : clears = false → t.keysdown = s.keysdown

theorem Quiet.passes (h : Quiet s t) {clears : Bool} : Passes clears s t := ⟨h.told, h.idle, fun _ => h.keysdown⟩

theorem Passes.after {clears : Bool} (h : Passes clears t u) (hst : Quiet s t) : Passes clears s u where
  told hs := h.told (hst.told hs)
  idle hs := h.idle (hst.idle hs)
  keysdown hclears := (h.keysdown hclears).trans hst.keysdown

theorem Passes.still {clears : Bool} (hdesk : t.desk = s.desk) (hmodes : t.modesByte = s.modesByte)
    (hhost : t.host = s.host) (hkeysdown : t.keysdown = s.keysdown) : Passes clears s t :=
  (Quiet.still hdesk hmodes hhost hkeysdown).passes

theorem Passes.quiet {clears : Bool} (h : Passes clears s t) (htu : Quiet t u) : Passes clears s u where
  told hs := htu.told (h.told hs)
  idle hs := htu.idle (h.idle hs)
  keysdown hkeys := htu.keysdown.trans (h.keysdown hkeys)

theorem host_load : s.loadKeyFromBuffer.host = s.host := by
  unfold KeyGloo.loadKeyFromBuffer
  split
  · rfl
  split
  · rfl
  · rfl

theorem keysdown_load : s.loadKeyFromBuffer.keysdown = s.keysdown := by
  unfold KeyGloo.loadKeyFromBuffer
  split
  · rfl
  split
  · rfl
  · rfl

theorem storeKeyToBuffer_rest (c : Config) (code mods : Byte) :
    (s.storeKeyToBuffer c code mods).host = s.host ∧ (s.storeKeyToBuffer c code mods).keysdown = s.keysdown := by
  unfold KeyGloo.storeKeyToBuffer
  split
  · exact ⟨rfl, rfl⟩
  split
  · exact ⟨rfl, rfl⟩
  split
  · exact ⟨rfl, rfl⟩
  dsimp only
  split
  · exact ⟨rfl, rfl⟩
  · exact ⟨host_load, keysdown_load⟩

theorem storeKeyToBuffer_stored (c : Config) (code mods : Byte) :
    (s.storeKeyToBuffer c code mods).history.stored =
      s.history.stored ++ (if c.keyIntercept code mods then [] else [(code, mods)]) := by
  have hload : ∀ u : KeyGloo, u.loadKeyFromBuffer.history.stored = u.history.stored := by
    intro u
    unfold KeyGloo.loadKeyFromBuffer
    split
    · rfl
    split
    · rfl
    · rfl
  unfold KeyGloo.storeKeyToBuffer
  by_cases hintercept : c.keyIntercept code mods = true
  · rw [if_pos hintercept, if_pos hintercept, List.append_nil]
  rw [if_neg hintercept, if_neg hintercept]
  split
  · rfl
  split
  · rfl
  dsimp only
  split
  · rfl
  · rw [hload]
    rfl

theorem Told.withModes (hs : s.Told) (hempty : s.inpt = s.outpt) (modes : Byte) : Told { s with modesByte := modes } where
  toKept := hs.toKept.of_desk rfl
  waiting h := absurd hempty h

theorem Told.reset (hs : s.Told) : s.reset.Told := by
  have hempty : s.flushKeyQueue.inpt = s.flushKeyQueue.outpt := rfl
  have hcleared := hs.flushKeyQueue.clearLatch hempty
  exact hcleared.of_desk rfl (fun h => h)

theorem Told.flushBuffer (hs : s.Told) : s.flushBuffer.Told := by
  have hempty : s.flushKeyQueue.inpt = s.flushKeyQueue.outpt := rfl
  exact (hs.flushKeyQueue.clearLatch hempty).of_desk rfl (fun h => h)

theorem Told.orModes (hs : s.Told) (modes : Byte) : Told { s with modesByte := s.modesByte ||| modes } := by
  refine hs.of_desk rfl (fun henabled => ?_)
  change s.modesByte.getLsbD 4 = true at henabled
  show (s.modesByte ||| modes).getLsbD 4 = true
  rw [BitVec.getLsbD_or, henabled, Bool.true_or]

theorem Told.clearModes (hs : s.Told) (modes : Byte) : (s.clearModes modes).Told := by
  unfold KeyGloo.clearModes
  split
  case isTrue => exact hs.flushKeyQueue.withModes rfl _
  case isFalse hmodes =>
    refine hs.of_desk rfl (fun henabled => ?_)
    change s.modesByte.getLsbD 4 = true at henabled
    show (s.modesByte &&& ~~~modes).getLsbD 4 = true
    rw [BitVec.getLsbD_and, BitVec.getLsbD_not, henabled, (Bool.not_eq_true _).mp hmodes]
    rfl

theorem Told.synchModes (hs : s.Told) (hempty : s.inpt = s.outpt) (modes : Byte) : (s.synchModes modes).Told := by
  have hmodes := hs.withModes hempty modes
  unfold KeyGloo.synchModes
  split
  · exact hmodes
  · exact hmodes.flushKeyQueue

theorem Quiet.setConfiguration (b0 b1 b2 : Byte) : Quiet s (s.setConfiguration b0 b1 b2) := by
  have hbytes : Quiet s { s with configurationBytes := (b0, b1, b2) } := still rfl rfl rfl rfl
  have hlang := hbytes.trans (poke (i := atLang) (b1 &&& 0x0F) (by decide) (by decide))
  have hrepeat := hlang.trans (poke (i := atDlyrpt) b2 (by decide) (by decide))
  exact hrepeat.trans (poke b0 (by decide) (by decide))

theorem Quiet.readUcMemory (c : Config) (addr : Nat) : Quiet s (s.readUcMemory c addr).2 := by
  unfold KeyGloo.readUcMemory
  split
  · exact still rfl rfl rfl rfl
  split
  · exact refl s
  · exact refl s

theorem Quiet.answer (bytes : List Byte) : Quiet s (s.answer bytes) := still rfl rfl rfl rfl

theorem clearModes_passes (modes : Byte) {clears : Bool} : Passes clears s (s.clearModes modes) where
  told hs := hs.clearModes modes
  idle hs := by
    unfold KeyGloo.clearModes
    split
    · exact hs
    · exact hs
  keysdown _ := by
    unfold KeyGloo.clearModes
    split
    · rfl
    · rfl

theorem synchModes_idle {modes : Byte} (hs : s.host.Idle) : (s.synchModes modes).host.Idle := by
  unfold KeyGloo.synchModes
  split
  · exact hs
  · exact hs

theorem Passes.store {clears : Bool} (h : Passes clears s t) (c : Config) (code mods : Byte) :
    Passes clears s (t.storeKeyToBuffer c code mods) where
  told hs := (h.told hs).storeKeyToBuffer c code mods
  idle hs := by
    rw [(storeKeyToBuffer_rest c code mods).1]
    exact h.idle hs
  keysdown hkeys := by
    rw [(storeKeyToBuffer_rest c code mods).2]
    exact h.keysdown hkeys

theorem controlCommand_passes (c : Config) (hwrite : s.cmd 0 ≠ 0x08) :
    Passes (clearsKeys (s.cmd 0)) s (s.controlCommand c) := by
  have hclears : ∀ {b : Byte} {p : Prop}, b.toNat = 0x02 ∨ b.toNat = 0x03 ∨ b.toNat = 0x07 → clearsKeys b = false → p := by
    intro b p hb hclears
    have hcommand : b = 0x02 ∨ b = 0x03 ∨ b = 0x07 := by
      rcases hb with h | h | h
      · exact .inl (BitVec.eq_of_toNat_eq h)
      · exact .inr (.inl (BitVec.eq_of_toNat_eq h))
      · exact .inr (.inr (BitVec.eq_of_toNat_eq h))
    rcases hcommand with rfl | rfl | rfl
    · cases hclears
    · cases hclears
    · cases hclears
  have hmapped : Quiet s (s.mapped (s.cmd 1) 0).2 := .still rfl rfl rfl rfl
  unfold KeyGloo.controlCommand
  split
  · exact .still rfl rfl rfl rfl
  case h_2 h => exact ⟨fun hs => hs.reset.of_desk rfl (fun h => h), fun hs => hs, hclears (.inl h)⟩
  case h_3 h => exact ⟨fun hs => hs.flushBuffer.of_desk rfl (fun h => h), fun hs => hs, hclears (.inr (.inl h))⟩
  · exact ⟨fun hs => hs.orModes _, fun hs => hs, fun _ => rfl⟩
  · exact clearModes_passes _
  · exact (Quiet.setConfiguration _ _ _).passes
  case h_7 h =>
    apply Passes.quiet _ (Quiet.setConfiguration _ _ _)
    exact ⟨fun hs => hs.reset.synchModes rfl _, fun hs => synchModes_idle hs, hclears (.inr (.inr h))⟩
  case h_8 h => exact absurd (BitVec.eq_of_toNat_eq h) hwrite
  · exact ((Quiet.readUcMemory c _).trans (Quiet.answer _)).passes
  · exact (Quiet.answer _).passes
  · exact (Quiet.answer _).passes
  · exact .still rfl rfl rfl rfl
  · exact (Quiet.answer _).passes
  · exact (Quiet.answer _).passes
  · exact (Quiet.answer _).passes
  · exact .still rfl rfl rfl rfl
  · exact hmapped.passes.store c _ _
  · exact (Quiet.refl s).passes

theorem Quiet.transmit (num : Nat) : Quiet s (s.transmit num) := by
  have htouch : Quiet s
      (s.touchAll ((List.range (num - 1)).flatMap (fun i => [.registerData i, .cmd (2 + i)]))) :=
    .still rfl rfl rfl rfl
  unfold KeyGloo.transmit
  dsimp only
  split
  · exact (htouch.trans (.host (fun h => h.reset)))
  · exact (htouch.trans (.host (fun h => h.flush _)))
  · exact (htouch.trans (.listen _ _ _))
  · split
    · exact (htouch.trans ((Quiet.talk _ _ _).trans (.answerWith _)))
    · exact (htouch.trans (.talk _ _ _))

theorem Quiet.deviceCommand : Quiet s s.deviceCommand := by
  have hsrq : ∀ (addr : Byte) (enable : Bool), Quiet s (s.setDeviceSrq addr enable) := by
    intro addr enable
    unfold setDeviceSrq
    split
    · exact .host (fun h => h.setSrqEnable addr enable)
    · exact .still rfl rfl rfl rfl
  unfold KeyGloo.deviceCommand
  dsimp only
  split
  · exact Quiet.host (fun h => h.reset)
  split
  · exact Quiet.refl s
  split
  · exact transmit _
  split
  · exact (hsrq _ true)
  split
  · exact Quiet.host (fun h => h.flush _)
  split
  · exact (hsrq _ false)
  · exact Quiet.refl s

theorem Quiet.poll (addr : Byte) (reg : Nat) : Quiet s (s.poll addr reg) := by
  unfold KeyGloo.poll
  split
  · exact Quiet.answerWith _
  split
  · exact ((Quiet.talk _ _ _).trans ((Quiet.updateModifiersAt _ _ _).trans (.answerWith _)))
  · exact ((Quiet.talk _ _ _).trans (.answerWith _))

theorem command_passes (c : Config) (hwrite : s.cmd 0 ≠ 0x08) : Passes (clearsKeys (s.cmd 0)) s (s.command c) := by
  unfold KeyGloo.command
  dsimp only
  split
  · exact controlCommand_passes c hwrite
  · exact Quiet.deviceCommand.passes
  · exact (Quiet.listen _ _ _).passes
  · exact (Quiet.poll _ _).passes

theorem executeCommand_passes (c : Config) (hwrite : s.cmd 0 ≠ 0x08) : Passes (clearsKeys (s.cmd 0)) s (s.executeCommand c) := by
  have hstart : Quiet s { s with responseBytes := 0, responseIndex := 0 } := .still rfl rfl rfl rfl
  have hcommand := command_passes c (s := { s with responseBytes := 0, responseIndex := 0 }) hwrite
  exact (hcommand.after hstart).quiet (.answered _)

theorem received_keys (value : Byte) : Quiet s (s.received value) := by
  have htake : Quiet s (s.takeCommandByte value) := by
    unfold takeCommandByte
    split
    · exact .still rfl rfl rfl rfl
    · exact .refl s
  unfold received countArguments
  split
  · exact htake.trans (.still rfl rfl rfl rfl)
  · exact htake

def completes (value : Byte) (s : KeyGloo) : Bool := (s.received value).cmdBytes == 0

def commandOf (value : Byte) (s : KeyGloo) : Byte := (s.received value).cmd 0

theorem writeCmdRegister_passes (c : Config) {value : Byte}
    (hwrite : s.completes value = true → s.commandOf value ≠ 0x08) :
    (s.Told → (s.writeCmdRegister c value).Told) ∧ (s.host.Idle → (s.writeCmdRegister c value).host.Idle) ∧
      ((s.completes value = true → clearsKeys (s.commandOf value) = false) →
        (s.writeCmdRegister c value).keysdown = s.keysdown) := by
  have hreceived := received_keys (s := s) value
  unfold writeCmdRegister
  dsimp only
  split
  case isFalse => exact ⟨hreceived.told, hreceived.idle, fun _ => hreceived.keysdown⟩
  case isTrue hcomplete =>
    have hcommand := executeCommand_passes c (hwrite (beq_iff_eq.mpr hcomplete))
    refine ⟨fun hs => (hcommand.told (hreceived.told hs)).of_desk rfl (fun h => h),
      fun hs => hcommand.idle (hreceived.idle hs), fun hkeys => ?_⟩
    exact (hcommand.keysdown (hkeys (beq_iff_eq.mpr hcomplete))).trans hreceived.keysdown

/-! ### Keys of the host -/

def isModifier (keycode : Byte) : Bool :=
  keycode == adbControl || keycode == adbLeftShift || keycode == adbCommand || keycode == adbOption ||
    keycode == adbCapsLock

def pressed (c : Config) (keycode : Byte) (up : Bool) (s : KeyGloo) : List (Byte × Byte) :=
  let code := mapKey (s.ram atLang) keycode s.currmod
  let mods := s.currmod ||| keypadFlag keycode
  if up = true ∨ keycode = 0xFF ∨ keycode = adbPower ∨ isModifier keycode = true then []
  else if s.chord = true ∧ (keycode = adbDelete ∨ keycode = adbEscape) then []
  else if c.keyIntercept code mods then [] else [(code, mods)]

def keysdownWith (keycode : Byte) (up : Bool) (s : KeyGloo) : Int :=
  if keycode = 0xFF ∨ keycode = adbPower ∨ isModifier keycode = true then s.keysdown
  else if s.chord = true ∧ keycode = adbDelete then 0
  else if up then s.keysdown - 1 else s.keysdown + 1

theorem scancodeMapped_cases (keys : AppleKeys) (scancode : Nat) :
    scancodeMapped keys scancode = 0xFF ∨ (scancodeMapped keys scancode).getLsbD 7 = false := by
  have hall : scancodes.all (fun b => b == 0xFF || !b.getLsbD 7) = true := by decide +kernel
  have htable : ∀ b ∈ scancodes, b = 0xFF ∨ b.getLsbD 7 = false := by
    intro b hb
    rcases Bool.or_eq_true_iff.mp (List.all_eq_true.mp hall b hb) with h | h
    · exact .inl (beq_iff_eq.mp h)
    · exact .inr (Bool.not_eq_true' _ |>.mp h)
  unfold scancodeMapped
  dsimp only
  split
  · exact .inr rfl
  split
  · exact .inr rfl
  split
  · exact .inr rfl
  split
  · exact .inr rfl
  · cases hcode : scancodes[scancode % 512]? with
    | none => exact .inr rfl
    | some b => exact htable b (List.mem_of_getElem? hcode)

structure Polled (code : Byte) (r : Register) : Prop where
  size : r.size = 2
  low : r.data 0 = code
  high : r.data 1 = if code = adbPower then adbPower else 0xFF

theorem polled_of_pending {k : Keyboard} {code : Byte} (hk : k.Pending code) : Polled code (k.talk 0).1 := by
  refine ⟨hk.size, ?_, ?_⟩
  · show (if 0 < (k.registers 0).size then (k.registers 0).data 0 else 0) = code
    rw [hk.size]
    exact hk.low
  · show (if 1 < (k.registers 0).size then (k.registers 0).data 1 else 0) = _
    rw [hk.size]
    exact hk.high

def eventCode (e : Option KeyEvent) : Byte :=
  match e with
  | some e => e.code
  | none => 0xFF

theorem pending_of_idle {k : Keyboard} (hk : k.Idle) (e : Option KeyEvent) : (k.processEvent e).Pending (eventCode e) := by
  cases e with
  | none => exact hk.processNone
  | some e => exact hk.processEvent e

theorem enqueued_polled (c : Config) (scancode : Nat) (up : Bool) (stack : Register) (hs : s.host.Idle)
    (hid : s.host.keyboard.id = 0x02) :
    Polled (eventCode (mapSdlToAdbKey c.keys scancode up)) ((s.enqueued c scancode up).talk 0x02 0 stack).1 ∧
      Quiet s ((s.enqueued c scancode up).talk 0x02 0 stack).2 ∧
      ((s.enqueued c scancode up).talk 0x02 0 stack).2.ram = s.ram := by
  have hpending := pending_of_idle hs (mapSdlToAdbKey c.keys scancode up)
  have hid' : (s.host.keyboard.processEvent (mapSdlToAdbKey c.keys scancode up)).id = 0x02 := by
    rw [Keyboard.id_processEvent]
    exact hid
  have htalk : (s.enqueued c scancode up).host.talk 0x02 0 stack =
      (((s.enqueued c scancode up).host.keyboard.talk 0).1,
        { (s.enqueued c scancode up).host with keyboard := ((s.enqueued c scancode up).host.keyboard.talk 0).2 }) :=
    if_pos hid'
  have hregister : ((s.enqueued c scancode up).talk 0x02 0 stack).1 = ((s.enqueued c scancode up).host.keyboard.talk 0).1 :=
    congrArg Prod.fst htalk
  have hhost : ((s.enqueued c scancode up).talk 0x02 0 stack).2.host.keyboard =
      ((s.enqueued c scancode up).host.keyboard.talk 0).2 :=
    congrArg (fun r => r.2.keyboard) htalk
  refine ⟨?_, ⟨rfl, rfl, fun _ => ?_, rfl⟩, rfl⟩
  · rw [hregister]
    exact polled_of_pending hpending
  · rw [Host.Idle, hhost]
    exact hpending.talk

theorem updateModifier_isSome (keycode : Byte) (down : Bool) (s : KeyGloo) :
    (s.updateModifier keycode down).isSome = isModifier keycode := by
  unfold KeyGloo.updateModifier isModifier
  by_cases h₁ : keycode = adbControl
  · rw [if_pos h₁, h₁]
    rfl
  rw [if_neg h₁, beq_eq_false_iff_ne.mpr h₁]
  by_cases h₂ : keycode = adbLeftShift
  · rw [if_pos h₂, h₂]
    rfl
  rw [if_neg h₂, beq_eq_false_iff_ne.mpr h₂]
  by_cases h₃ : keycode = adbCommand
  · rw [if_pos h₃, h₃]
    rfl
  rw [if_neg h₃, beq_eq_false_iff_ne.mpr h₃]
  by_cases h₄ : keycode = adbOption
  · rw [if_pos h₄, h₄]
    rfl
  rw [if_neg h₄, beq_eq_false_iff_ne.mpr h₄]
  by_cases h₅ : keycode = adbCapsLock
  · rw [if_pos h₅, h₅]
    rfl
  rw [if_neg h₅, beq_eq_false_iff_ne.mpr h₅]
  rfl

theorem updateModifiers_polled {code : Byte} {r : Register} (hr : Polled code r) (hpower : code ≠ adbPower)
    (s : KeyGloo) :
    (s.updateModifiersFromReg r).1 = isModifier (code &&& 0x7F) ∧
      (isModifier (code &&& 0x7F) = false →
        (s.updateModifiersFromReg r).2 = (s.touch (.registerData 0)).touch (.registerData 1)) := by
  have hhigh : r.data 1 = 0xFF := hr.high.trans (if_neg hpower)
  have hnone : ∀ u : KeyGloo, u.updateModifier (r.data 1 &&& 0x7F) (!(r.data 1).getLsbD 7) = none := by
    intro u
    apply Option.not_isSome_iff_eq_none.mp
    rw [updateModifier_isSome, hhigh]
    decide
  have hfirst := updateModifier_isSome (code &&& 0x7F) (!code.getLsbD 7) (s.touch (.registerData 0))
  have hplaces : List.range r.size = [0, 1] := by
    rw [hr.size]
    rfl
  unfold updateModifiersFromReg
  rw [hplaces]
  unfold KeyGloo.updateModifiersAt
  dsimp only
  rw [hr.low]
  cases hmodifier : (s.touch (.registerData 0)).updateModifier (code &&& 0x7F) (!code.getLsbD 7) with
  | some t =>
    rw [hmodifier] at hfirst
    exact ⟨hfirst, fun h => absurd (hfirst.trans h).symm Bool.false_ne_true⟩
  | none =>
    rw [hmodifier] at hfirst
    unfold KeyGloo.updateModifiersAt
    dsimp only
    rw [hnone]
    exact ⟨hfirst, fun _ => rfl⟩

structure Typed (c : Config) (keycode : Byte) (up : Bool) (s t : KeyGloo) : Prop where
  told : s.Told → t.Told
  idle : s.host.Idle → t.host.Idle
  stored : t.history.stored = s.history.stored ++ pressed c keycode up s
  keysdown : t.keysdown = keysdownWith keycode up s

theorem Quiet.typed {c : Config} {keycode : Byte} {up : Bool} (h : Quiet s t) (hpressed : pressed c keycode up s = [])
    (hkeysdown : keysdownWith keycode up s = s.keysdown) : Typed c keycode up s t where
  told := h.told
  idle := h.idle
  stored := by rw [h.stored, hpressed, List.append_nil]
  keysdown := h.keysdown.trans hkeysdown.symm

theorem pressed_congr {c : Config} {keycode : Byte} {up : Bool} (h : t.ram = s.ram) :
    pressed c keycode up t = pressed c keycode up s := by
  unfold pressed chord currmod
  rw [h]

theorem keysdownWith_congr {keycode : Byte} {up : Bool} (h : t.ram = s.ram) (hkeysdown : t.keysdown = s.keysdown) :
    keysdownWith keycode up t = keysdownWith keycode up s := by
  unfold keysdownWith chord currmod
  rw [h, hkeysdown]

theorem Quiet.then {c : Config} {keycode : Byte} {up : Bool} (h : Quiet s t) (hram : t.ram = s.ram)
    (htyped : Typed c keycode up t u) : Typed c keycode up s u where
  told hs := htyped.told (h.told hs)
  idle hs := htyped.idle (h.idle hs)
  stored := by rw [htyped.stored, h.stored, pressed_congr hram]
  keysdown := htyped.keysdown.trans (keysdownWith_congr hram h.keysdown)

structure Plain (keycode : Byte) : Prop where
  modifier : isModifier keycode = false
  power : keycode ≠ adbPower
  mapped : keycode ≠ 0xFF

theorem pressed_up {keycode : Byte} (c : Config) : pressed c keycode true s = [] := by
  unfold pressed
  rw [if_pos (.inl rfl)]

theorem Plain.pressed_down {keycode : Byte} (hk : Plain keycode) (c : Config) :
    pressed c keycode false s =
      if s.chord = true ∧ (keycode = adbDelete ∨ keycode = adbEscape) then []
      else if c.keyIntercept (mapKey (s.ram atLang) keycode s.currmod) (s.currmod ||| keypadFlag keycode) then []
      else [(mapKey (s.ram atLang) keycode s.currmod, s.currmod ||| keypadFlag keycode)] := by
  apply if_neg
  rintro (h | h | h | h)
  · exact Bool.false_ne_true h
  · exact hk.mapped h
  · exact hk.power h
  · exact Bool.false_ne_true (hk.modifier.symm.trans h)

variable (s) in
theorem Plain.keysdownWith {keycode : Byte} (up : Bool) (hk : Plain keycode) :
    keysdownWith keycode up s =
      if s.chord = true ∧ keycode = adbDelete then 0 else if up then s.keysdown - 1 else s.keysdown + 1 := by
  apply if_neg
  rintro (h | h | h)
  · exact hk.mapped h
  · exact hk.power h
  · exact Bool.false_ne_true (hk.modifier.symm.trans h)

theorem store_typed (c : Config) {keycode code mods value : Byte} (hdesk : u.desk = s.desk)
    (hmodes : u.modesByte = s.modesByte) (hhost : u.host = s.host)
    (hpressed : pressed c keycode false s = if c.keyIntercept code mods then [] else [(code, mods)])
    (hkeysdown : u.keysdown = keysdownWith keycode false s) :
    Typed c keycode false s ((u.storeKeyToBuffer c code mods).poke atDncntr value) := by
  have hpoke : Quiet (u.storeKeyToBuffer c code mods) ((u.storeKeyToBuffer c code mods).poke atDncntr value) :=
    .poke _ (by decide) (by decide)
  obtain ⟨hhost', hkeysdown'⟩ := storeKeyToBuffer_rest (s := u) c code mods
  constructor
  · intro hs
    have hu : u.Told := hs.of_desk hdesk (fun henabled => by rw [keyboardBufferEnabled, hmodes]; exact henabled)
    exact hpoke.told (hu.storeKeyToBuffer c code mods)
  · intro hs
    apply hpoke.idle
    rw [hhost', hhost]
    exact hs
  · rw [hpoke.stored, storeKeyToBuffer_stored, hpressed]
    exact congrArg (· ++ _) (congrArg (fun d => d.2.2.2.2.2.2.stored) hdesk)
  · exact hpoke.keysdown.trans (hkeysdown'.trans hkeysdown)

theorem ordinaryKey_typed (c : Config) {keycode : Byte} {up : Bool} (hk : Plain keycode)
    (hdelete : ¬ (s.chord = true ∧ keycode = adbDelete)) (hescape : ¬ (s.chord = true ∧ keycode = adbEscape)) :
    Typed c keycode up s ((s.countKey (!up)).ordinaryKey c keycode (!up)) := by
  have hneither : ¬ (s.chord = true ∧ (keycode = adbDelete ∨ keycode = adbEscape)) := by
    rintro ⟨hchord, h | h⟩
    · exact hdelete ⟨hchord, h⟩
    · exact hescape ⟨hchord, h⟩
  have hkeysdown := hk.keysdownWith s up
  rw [if_neg hdelete] at hkeysdown
  unfold ordinaryKey setRepeat
  cases up with
  | true =>
    have hmapped : Quiet (s.countKey false) { ((s.countKey false).mapped keycode (s.countKey false).currmod).2 with
        lastKeyDown := ((s.countKey false).mapped keycode (s.countKey false).currmod).1 } := .still rfl rfl rfl rfl
    have hquiet := hmapped.trans (Quiet.poke (i := atDncntr) 0 (by decide) (by decide))
    have hcounted : s.Told → (s.countKey false).Told := fun hs => hs.of_desk rfl (fun h => h)
    refine ⟨fun hs => hquiet.told (hcounted hs), fun hs => hquiet.idle hs, ?_, hquiet.keysdown.trans hkeysdown.symm⟩
    rw [pressed_up, List.append_nil]
    exact hquiet.stored
  | false =>
    have hpressed := hk.pressed_down (s := s) c
    rw [if_neg hneither] at hpressed
    apply store_typed c
    · rfl
    · rfl
    · rfl
    · exact hpressed
    · exact hkeysdown.symm

theorem Plain.pressed_chord {keycode : Byte} (up : Bool) (hk : Plain keycode) (c : Config) (hchord : s.chord = true)
    (hkey : keycode = adbDelete ∨ keycode = adbEscape) : pressed c keycode up s = [] := by
  cases up with
  | true => exact pressed_up c
  | false => rw [hk.pressed_down, if_pos ⟨hchord, hkey⟩]

theorem keyByte_typed (c : Config) {keycode byte : Byte} {up : Bool} (hkeycode : byte &&& 0x7F = keycode)
    (hup : byte.getLsbD 7 = up) (hk : Plain keycode) : Typed c keycode up s (s.keyByte c byte) := by
  have hkeysdown := hk.keysdownWith s up
  have hcount : (s.countKey (!up)).keysdown = if up then s.keysdown - 1 else s.keysdown + 1 := by
    cases up with
    | true => rfl
    | false => rfl
  unfold keyByte
  dsimp only
  rw [hkeycode, hup]
  split
  case isTrue hdelete =>
    have hchord : s.chord = true := hdelete.2
    rw [if_pos ⟨hchord, hdelete.1⟩] at hkeysdown
    have htold : s.Told → (s.countKey (!up)).Told := fun hs => hs.of_desk rfl (fun h => h)
    refine ⟨fun hs => (htold hs).flushBuffer, fun hs => hs, ?_, hkeysdown.symm⟩
    rw [hk.pressed_chord _ c hchord (.inl hdelete.1), List.append_nil]
    rfl
  case isFalse hdelete =>
    split
    case isTrue hescape =>
      have hchord : s.chord = true := hescape.2
      rw [if_neg (fun h => hdelete ⟨h.2, h.1⟩), ← hcount] at hkeysdown
      have hpressed := hk.pressed_chord up c hchord (.inr hescape.1)
      split
      · refine ⟨fun hs => hs.of_desk rfl (fun h => h), fun hs => hs, ?_, hkeysdown.symm⟩
        rw [hpressed, List.append_nil]
        rfl
      · refine ⟨fun hs => hs.of_desk rfl (fun h => h), fun hs => hs, ?_, hkeysdown.symm⟩
        rw [hpressed, List.append_nil]
        rfl
    case isFalse hescape =>
      exact ordinaryKey_typed c hk (fun h => hdelete ⟨h.2, h.1⟩) (fun h => hescape ⟨h.2, h.1⟩)

theorem code_parts (keycode : Byte) (up : Bool) (hbit : keycode.getLsbD 7 = false) :
    (KeyEvent.code ⟨keycode, up⟩) &&& 0x7F = keycode ∧ (KeyEvent.code ⟨keycode, up⟩).getLsbD 7 = up := by
  revert keycode up
  decide +kernel

theorem pressed_special {c : Config} {keycode : Byte} {up : Bool}
    (h : keycode = 0xFF ∨ keycode = adbPower ∨ isModifier keycode = true) : pressed c keycode up s = [] := by
  unfold pressed
  rw [if_pos (.inr h)]

theorem keysdownWith_special {keycode : Byte} {up : Bool}
    (h : keycode = 0xFF ∨ keycode = adbPower ∨ isModifier keycode = true) : keysdownWith keycode up s = s.keysdown := by
  unfold keysdownWith
  rw [if_pos h]

variable (c : Config)

theorem autoPolled_none {r : Register} (hr : Polled 0xFF r) : Quiet s (s.autoPolled c r) := by
  unfold autoPolled
  rw [hr.low, hr.high]
  rw [if_neg (by decide), if_pos (by decide)]
  exact .still rfl rfl rfl rfl

theorem autoPolled_power {r : Register} (hr : Polled adbPower r) : Quiet s (s.autoPolled c r) := by
  unfold autoPolled
  rw [hr.low, hr.high]
  rw [if_pos (by decide)]
  split
  · exact .still rfl rfl rfl rfl
  · exact .refl s

theorem autoPolled_plain {code : Byte} {r : Register} (hr : Polled code r) (hpower : code ≠ adbPower)
    (hnone : code ≠ 0xFF) :
    s.autoPolled c r =
      if isModifier (code &&& 0x7F) = true then (s.updateModifiersFromReg r).2
      else (((s.touch (.registerData 0)).touch (.registerData 1)).touch (.registerData 0)).keyByte c code := by
  obtain ⟨hfound, hnot⟩ := updateModifiers_polled hr hpower s
  unfold autoPolled
  rw [hr.low, if_neg (fun h => hpower h.1), if_neg (fun h => hnone h.1)]
  rw [hfound, hr.size]
  by_cases hmodifier : isModifier (code &&& 0x7F) = true
  · rw [if_pos (.inl hmodifier), if_pos hmodifier]
  · have hneither : ¬ (isModifier (code &&& 0x7F) = true ∨ 2 = 0) := by
      rintro (h | h)
      · exact hmodifier h
      · cases h
    rw [if_neg hneither, if_neg hmodifier, if_neg hnone, hnot ((Bool.not_eq_true _).mp hmodifier)]

theorem autoPolled_typed {keycode : Byte} {up : Bool} (hbit : keycode.getLsbD 7 = false) {r : Register}
    (hr : Polled (KeyEvent.code ⟨keycode, up⟩) r) : Typed c keycode up s (s.autoPolled c r) := by
  obtain ⟨hkeycode, hup⟩ := code_parts keycode up hbit
  have hmapped : keycode ≠ 0xFF := by
    rintro rfl
    cases hbit
  by_cases hpower : keycode = adbPower
  · have hspecial : keycode = 0xFF ∨ keycode = adbPower ∨ isModifier keycode = true := .inr (.inl hpower)
    have hquiet : Quiet s (s.autoPolled c r) := by
      subst hpower
      cases up with
      | true => exact autoPolled_none c hr
      | false => exact autoPolled_power c hr
    exact hquiet.typed (pressed_special hspecial) (keysdownWith_special hspecial)
  have hcode : KeyEvent.code ⟨keycode, up⟩ ≠ adbPower := by
    intro h
    rw [h] at hkeycode
    exact hpower hkeycode.symm
  have hnone : KeyEvent.code ⟨keycode, up⟩ ≠ 0xFF := by
    intro h
    rw [h] at hkeycode
    exact hpower hkeycode.symm
  rw [autoPolled_plain c hr hcode hnone, hkeycode]
  by_cases hmodifier : isModifier keycode = true
  · rw [if_pos hmodifier]
    have hspecial : keycode = 0xFF ∨ keycode = adbPower ∨ isModifier keycode = true := .inr (.inr hmodifier)
    exact (Quiet.updateModifiersAt r _ s).typed (pressed_special hspecial) (keysdownWith_special hspecial)
  · rw [if_neg hmodifier]
    have htouch : Quiet s (((s.touch (.registerData 0)).touch (.registerData 1)).touch (.registerData 0)) :=
      ((Quiet.touched (.registerData 0)).trans (.touched (.registerData 1))).trans (.touched (.registerData 0))
    exact htouch.then rfl (keyByte_typed c hkeycode hup ⟨(Bool.not_eq_true _).mp hmodifier, hpower, hmapped⟩)

theorem processKey_typed (scancode : Nat) (up : Bool) (stack : Register) (hs : s.host.Idle)
    (hid : s.host.keyboard.id = 0x02) (hpoll : s.autoPollEnabled = true) :
    Typed c (scancodeMapped c.keys scancode) up s (s.processKey c scancode up false stack) := by
  obtain ⟨hpolled, hquiet, hram⟩ := enqueued_polled c scancode up stack hs hid
  have hprocess : s.processKey c scancode up false stack =
      ((s.enqueued c scancode up).talk 0x02 0 stack).2.autoPolled c ((s.enqueued c scancode up).talk 0x02 0 stack).1 := by
    unfold processKey
    rw [if_neg Bool.false_ne_true]
    exact if_pos hpoll
  rw [hprocess]
  apply hquiet.then hram
  unfold mapSdlToAdbKey at hpolled
  by_cases hmapped : scancodeMapped c.keys scancode = 0xFF
  · rw [if_pos hmapped] at hpolled
    exact (autoPolled_none c hpolled).typed (pressed_special (.inl hmapped)) (keysdownWith_special (.inl hmapped))
  · rw [if_neg hmapped] at hpolled
    exact autoPolled_typed c ((scancodeMapped_cases c.keys scancode).resolve_left hmapped) hpolled

/-! ### Runs -/

def Op.Played (s : KeyGloo) : Op → Prop
  | .writeC026 value => s.completes value = true → s.commandOf value ≠ 0x08
  | .key _ _ again _ => again = false → s.host.keyboard.id = 0x02 ∧ s.autoPollEnabled = true
  | _ => True

theorem repeatKey_passes {clears : Bool} : Passes clears s (s.repeatKey c) := by
  have hpoke : ∀ (u : KeyGloo) (value : Byte), Quiet u (u.poke atDncntr value) :=
    fun _ _ => .poke _ (by decide) (by decide)
  unfold repeatKey
  split
  · exact (Quiet.refl s).passes
  split
  · exact ((hpoke s _).passes.store c _ _).quiet (hpoke _ _)
  · exact (hpoke s _).passes

theorem pasteKey_passes {clears : Bool} : Passes clears s (s.pasteKey c) := by
  have hpaste : ∀ (u : KeyGloo) (rest : List Byte), Quiet u { u with pasteBuffer := rest } :=
    fun _ _ => .still rfl rfl rfl rfl
  unfold pasteKey
  split
  · exact (Quiet.refl s).passes
  split
  · exact (Quiet.refl s).passes
  · exact ((Quiet.refl s).passes.store c _ _).quiet (hpaste _ _)

theorem frameHandler_passes {clears : Bool} : Passes clears s (s.frameHandler c) := by
  have hreset : Quiet (s.repeatKey c) (s.repeatKey c).countReset := .still rfl rfl rfl rfl
  have hpaste : Passes clears (s.repeatKey c).countReset _ := pasteKey_passes c
  have hrepeat : Passes clears s (s.repeatKey c) := repeatKey_passes c
  have hfirst := hrepeat.quiet hreset
  exact ⟨fun hs => hpaste.told (hfirst.told hs), fun hs => hpaste.idle (hfirst.idle hs),
    fun hkeys => (hpaste.keysdown hkeys).trans (hfirst.keysdown hkeys)⟩

theorem writeKeyStrobe_passes {clears : Bool} : Passes clears s s.writeKeyStrobe where
  told hs := hs.writeKeyStrobe
  idle hs := by
    unfold writeKeyStrobe
    dsimp only
    split
    · rw [host_load]
      exact hs
    · exact hs
  keysdown _ := by
    unfold writeKeyStrobe
    dsimp only
    split
    · exact keysdown_load
    · rfl

def Op.clears (s : KeyGloo) : Op → Bool
  | .writeC026 value => s.completes value && clearsKeys (s.commandOf value)
  | .reset _ => true
  | _ => false

def Op.counts (c : Config) (s : KeyGloo) : Op → Int
  | .key scancode up again _ => if again then s.keysdown else keysdownWith (scancodeMapped c.keys scancode) up s
  | _ => s.keysdown

theorem step_keys (c : Config) (op : Op) (hplayed : op.Played s) (hidle : s.host.Idle) :
    (s.Told → (step c s op).Told) ∧ (step c s op).host.Idle ∧
      (op.clears s = false → (step c s op).keysdown = op.counts c s) := by
  have hpasses : ∀ {t : KeyGloo} {clears : Bool}, Passes clears s t →
      (s.Told → t.Told) ∧ t.host.Idle ∧ (clears = false → t.keysdown = s.keysdown) :=
    fun h => ⟨h.told, h.idle hidle, h.keysdown⟩
  cases op with
  | readC000 => exact hpasses (Quiet.refl s).passes
  | readC010 => exact hpasses writeKeyStrobe_passes
  | writeC010 => exact hpasses writeKeyStrobe_passes
  | readC024 =>
    have hread : Quiet s s.readMouseData.2 := by
      unfold readMouseData
      split
      · exact .still rfl rfl rfl rfl
      · exact .still rfl rfl rfl rfl
    exact hpasses hread.passes
  | readC025 => exact hpasses (Quiet.refl s).passes
  | readC026 =>
    have hread : Quiet s s.readDataRegister.2 := by
      unfold readDataRegister
      split
      · exact .still rfl rfl rfl rfl
      split
      · exact .still rfl rfl rfl rfl
      · exact .still rfl rfl rfl rfl
    exact hpasses hread.passes
  | writeC026 value =>
    obtain ⟨htold, hidle', hkeysdown⟩ := writeCmdRegister_passes (s := s) c hplayed
    refine ⟨htold, hidle' hidle, fun hclears => hkeysdown (fun hcompletes => ?_)⟩
    change (s.completes value && clearsKeys (s.commandOf value)) = false at hclears
    rw [hcompletes, Bool.true_and] at hclears
    exact hclears
  | readC027 => exact hpasses (Quiet.refl s).passes
  | writeC027 value =>
    have hwrite : Quiet s (s.writeStatusRegister value) := .still rfl rfl rfl rfl
    exact hpasses hwrite.passes
  | key scancode up again stack =>
    cases again with
    | true => exact hpasses (Quiet.refl s).passes
    | false =>
      obtain ⟨hid, hpoll⟩ := hplayed rfl
      have htyped := processKey_typed c scancode up stack hidle hid hpoll
      exact ⟨htyped.told, htyped.idle hidle, fun _ => htyped.keysdown⟩
  | paste text =>
    have hpaste : Quiet s { s with pasteBuffer := text } := .still rfl rfl rfl rfl
    exact hpasses hpaste.passes
  | frame => exact hpasses (frameHandler_passes c)
  | reset cold =>
    have hpoke : Quiet s (s.poke 0x51 0) := .poke 0 (by decide) (by decide)
    refine ⟨fun hs => ?_, ?_, fun hclears => Bool.noConfusion hclears⟩
    · show (reset (if cold then s.poke 0x51 0 else s)).Told
      split
      · exact (hpoke.told hs).reset
      · exact hs.reset
    · show (reset (if cold then s.poke 0x51 0 else s)).host.Idle
      split
      · exact hidle
      · exact hidle

theorem powerOn_told : powerOn.Told ∧ powerOn.host.Idle := by
  have hsound : powerOn.passage.Sound := ⟨List.Perm.refl _, List.Pairwise.nil⟩
  refine ⟨⟨⟨⟨?_, ?_⟩, hsound, fun k hk => ?_, fun h => ?_, fun _ hd => ?_, fun _ ho => ?_⟩, fun h => ?_⟩, Host.idle_init⟩
  · exact Nat.zero_lt_succ 15
  · exact Nat.zero_lt_succ 15
  · exact absurd hk (Nat.not_lt_zero k)
  · exact absurd h Bool.false_ne_true
  · exact absurd hd List.not_mem_nil
  · exact absurd ho List.not_mem_nil
  · exact absurd rfl h

theorem run_told (c : Config) (ops : List Op) (hplayed : Machine.Guarded (step c) Op.Played powerOn ops) :
    (Machine.run (step c) powerOn ops).Told ∧ (Machine.run (step c) powerOn ops).host.Idle :=
  Machine.Guarded.invariant (P := fun s => s.Told ∧ s.host.Idle)
    (fun _ op hop hs => ⟨(step_keys c op hop hs.2).1 hs.1, (step_keys c op hop hs.2).2.1⟩) ops powerOn hplayed powerOn_told

/-! ### The keys that are down -/

def counted (c : Config) (scancode : Nat) : Bool :=
  let keycode := scancodeMapped c.keys scancode
  !(keycode == 0xFF || keycode == adbPower || isModifier keycode)

def heldAfter (c : Config) (held : List Nat) : Op → List Nat
  | .key scancode up again _ =>
    if again = true ∨ counted c scancode = false then held
    else if up then held.erase scancode else scancode :: held
  | _ => held

def stepHeld (c : Config) (s : KeyGloo × List Nat) (op : Op) : KeyGloo × List Nat := (step c s.1 op, heldAfter c s.2 op)

def Op.Fair (c : Config) (s : KeyGloo × List Nat) (op : Op) : Prop :=
  op.Played s.1 ∧ (op.clears s.1 = true → s.2 = []) ∧
    match op with
    | .key scancode up again _ => again = false →
        (up = true → counted c scancode = true → scancode ∈ s.2) ∧
          ¬ (s.1.chord = true ∧ scancodeMapped c.keys scancode = adbDelete)
    | _ => True

theorem plain_of_counted {c : Config} {scancode : Nat} (h : counted c scancode = true) :
    Plain (scancodeMapped c.keys scancode) := by
  unfold counted at h
  rw [Bool.not_eq_true', Bool.or_eq_false_iff, Bool.or_eq_false_iff, beq_eq_false_iff_ne, beq_eq_false_iff_ne] at h
  exact ⟨h.2, h.1.2, h.1.1⟩

theorem special_of_not_counted {c : Config} {scancode : Nat} (h : counted c scancode = false) :
    scancodeMapped c.keys scancode = 0xFF ∨ scancodeMapped c.keys scancode = adbPower ∨
      isModifier (scancodeMapped c.keys scancode) = true := by
  unfold counted at h
  rw [Bool.not_eq_false', Bool.or_eq_true, Bool.or_eq_true, beq_iff_eq, beq_iff_eq, or_assoc] at h
  exact h

theorem counts_held (c : Config) {held : List Nat} (op : Op) (hfair : op.Fair c (s, held))
    (hs : s.keysdown = held.length) : op.counts c s = (heldAfter c held op).length := by
  cases op with
  | key scancode up again stack =>
    cases again with
    | true => exact hs
    | false =>
      obtain ⟨_, _, hkey⟩ := hfair
      obtain ⟨hmem, hdelete⟩ := hkey rfl
      show keysdownWith (scancodeMapped c.keys scancode) up s = _
      unfold heldAfter
      dsimp only
      by_cases hcounted : counted c scancode = true
      · have hneither : ¬ (false = true ∨ counted c scancode = false) := by
          rintro (h | h)
          · cases h
          · exact Bool.false_ne_true (h.symm.trans hcounted)
        rw [(plain_of_counted hcounted).keysdownWith, if_neg hdelete, if_neg hneither, hs]
        cases up with
        | true =>
          have hheld : scancode ∈ held := hmem rfl hcounted
          have hlength := List.length_erase_of_mem hheld
          have hpos := List.length_pos_of_mem hheld
          change (held.length : Int) - 1 = (held.erase scancode).length
          omega
        | false => rfl
      · have hnot := (Bool.not_eq_true _).mp hcounted
        rw [keysdownWith_special (special_of_not_counted hnot), if_pos (.inr hnot)]
        exact hs
  | _ => exact hs

theorem command_cleared (c : Config) (h : clearsKeys (s.cmd 0) = true) : (s.command c).keysdown = 0 := by
  have hcommand : s.cmd 0 = 0x02 ∨ s.cmd 0 = 0x03 ∨ s.cmd 0 = 0x07 := by
    unfold clearsKeys at h
    rw [Bool.or_eq_true, Bool.or_eq_true, beq_iff_eq, beq_iff_eq, beq_iff_eq, or_assoc] at h
    exact h
  rcases hcommand with h | h | h
  · unfold command controlCommand
    rw [h]
    rfl
  · unfold command controlCommand
    rw [h]
    rfl
  · have hsynch : ∀ u : KeyGloo, (u.synchModes (s.cmd 1)).keysdown = u.keysdown := by
      intro u
      unfold synchModes
      split
      · rfl
      · rfl
    unfold command controlCommand
    rw [h]
    exact hsynch s.reset

theorem step_cleared (c : Config) (op : Op) (hclears : op.clears s = true) : (step c s op).keysdown = 0 := by
  cases op with
  | writeC026 value =>
    obtain ⟨hcompletes, hcommand⟩ := (Bool.and_eq_true _ _).mp hclears
    show (s.writeCmdRegister c value).keysdown = 0
    unfold writeCmdRegister
    rw [if_pos (beq_iff_eq.mp hcompletes)]
    unfold executeCommand
    rw [(Quiet.answered _).keysdown]
    exact command_cleared c (s := { s.received value with responseBytes := 0, responseIndex := 0 }) hcommand
  | reset cold => rfl
  | _ => cases hclears

theorem run_held (c : Config) (ops : List Op) (hfair : Machine.Guarded (stepHeld c) (Op.Fair c) (powerOn, []) ops) :
    (Machine.run (stepHeld c) (powerOn, []) ops).1.keysdown = (Machine.run (stepHeld c) (powerOn, []) ops).2.length := by
  have hstep : ∀ (s : KeyGloo × List Nat) (op : Op), op.Fair c s →
      (s.1.Told ∧ s.1.host.Idle) ∧ s.1.keysdown = s.2.length →
      ((stepHeld c s op).1.Told ∧ (stepHeld c s op).1.host.Idle) ∧
        (stepHeld c s op).1.keysdown = (stepHeld c s op).2.length := by
    intro ⟨s, held⟩ op hop ⟨hs, hkeysdown⟩
    obtain ⟨htold, hidle, hcounts⟩ := step_keys c op hop.1 hs.2
    refine ⟨⟨htold hs.1, hidle⟩, ?_⟩
    by_cases hclears : op.clears s = true
    · have hsame : heldAfter c held op = held := by
        cases op with
        | key => cases hclears
        | _ => rfl
      show (step c s op).keysdown = (heldAfter c held op).length
      rw [step_cleared c op hclears, hsame, show held = [] from hop.2.1 hclears]
      rfl
    · exact (hcounts ((Bool.not_eq_true _).mp hclears)).trans (counts_held c op hop hkeysdown)
  exact (Machine.Guarded.invariant hstep ops (powerOn, []) hfair ⟨powerOn_told, rfl⟩).2

theorem strobe_held (held : List Nat) (hs : s.keysdown = held.length) :
    s.readKeyStrobe.1.getLsbD 7 = true ↔ held ≠ [] := by
  have hclear : ∀ code : Byte, ((0x80 : Byte) ||| (code &&& 0x7F)).getLsbD 7 = true ∧
      ((0x00 : Byte) ||| (code &&& 0x7F)).getLsbD 7 = false := by decide
  unfold readKeyStrobe
  rw [hs]
  cases held with
  | nil =>
    rw [if_neg (by decide), (hclear _).2]
    exact ⟨fun h => absurd h Bool.false_ne_true, fun h => absurd rfl h⟩
  | cons scancode rest =>
    have hpos : ((scancode :: rest).length : Int) > 0 := by
      rw [List.length_cons]
      omega
    rw [if_pos hpos, (hclear _).1]
    exact ⟨fun _ => List.cons_ne_nil _ _, fun _ => rfl⟩

/-- Every key that is pressed is stored once, the special ones apart, and accounted for once. Where nothing clears the
count while a key is down, it is that of the keys that are. -/
theorem keys_once (c : Config) (ops : List Op) :
    (Machine.Guarded (step c) Op.Played powerOn ops →
      (Machine.run (step c) powerOn ops).Told ∧
        ∀ scancode up again stack, Op.Played (Machine.run (step c) powerOn ops) (.key scancode up again stack) →
          (step c (Machine.run (step c) powerOn ops) (.key scancode up again stack)).history.stored =
            (Machine.run (step c) powerOn ops).history.stored ++
              if again then [] else pressed c (scancodeMapped c.keys scancode) up (Machine.run (step c) powerOn ops)) ∧
      (Machine.Guarded (stepHeld c) (Op.Fair c) (powerOn, []) ops →
        (Machine.run (stepHeld c) (powerOn, []) ops).1.keysdown = (Machine.run (stepHeld c) (powerOn, []) ops).2.length ∧
          ((Machine.run (stepHeld c) (powerOn, []) ops).1.readKeyStrobe.1.getLsbD 7 = true ↔
            (Machine.run (stepHeld c) (powerOn, []) ops).2 ≠ [])) := by
  refine ⟨fun hplayed => ?_, fun hfair => ?_⟩
  · obtain ⟨htold, hidle⟩ := run_told c ops hplayed
    refine ⟨htold, fun scancode up again stack hkey => ?_⟩
    cases again with
    | true => exact (List.append_nil _).symm
    | false =>
      obtain ⟨hid, hpoll⟩ := hkey rfl
      exact (processKey_typed c _ _ _ hidle hid hpoll).stored
  · have hheld := run_held c ops hfair
    exact ⟨hheld, strobe_held _ hheld⟩

def typing : List Op :=
  [.writeC026 0x04, .writeC026 0x10, .key 4 false false noKey, .key 22 false false noKey, .readC010,
    .key 4 true false noKey]

theorem typing_once :
    Machine.Guarded (step plain) Op.Played powerOn typing ∧
      Machine.Guarded (stepHeld plain) (Op.Fair plain) (powerOn, []) typing ∧
        (Machine.run (step plain) powerOn typing).Told ∧ (Machine.run (stepHeld plain) (powerOn, []) typing).2 = [22] ∧
          (Machine.run (stepHeld plain) (powerOn, []) typing).1.keysdown = 1 := by
  have hkey : ∀ (s : KeyGloo) scancode up, s.host.keyboard.id = 0x02 ∧ s.autoPollEnabled = true →
      Op.Played s (.key scancode up false noKey) := fun _ _ _ h _ => h
  have hplayed : Machine.Guarded (step plain) Op.Played powerOn typing :=
    ⟨fun h => absurd h (by decide +kernel), fun _ => by decide +kernel, hkey _ _ _ (by decide +kernel),
      hkey _ _ _ (by decide +kernel), trivial, hkey _ _ _ (by decide +kernel), trivial⟩
  have hheld : (Machine.run (stepHeld plain) (powerOn, []) typing).2 = [22] := by decide +kernel
  have hfair : Machine.Guarded (stepHeld plain) (Op.Fair plain) (powerOn, []) typing := by
    have hfresh : ∀ (s : KeyGloo × List Nat) scancode,
        (s.1.host.keyboard.id = 0x02 ∧ s.1.autoPollEnabled = true) ∧ s.1.chord = false →
          Op.Fair plain s (.key scancode false false noKey) := fun _ _ h =>
      ⟨fun _ => h.1, fun hclears => Bool.noConfusion hclears, fun _ =>
        ⟨fun hup => Bool.noConfusion hup, fun hchord => Bool.false_ne_true (h.2.symm.trans hchord.1)⟩⟩
    exact ⟨⟨hplayed.1, fun h => absurd h (by decide +kernel), trivial⟩,
      ⟨hplayed.2.1, fun h => absurd h (by decide +kernel), trivial⟩, hfresh _ _ (by decide +kernel),
      hfresh _ _ (by decide +kernel), ⟨trivial, fun h => Bool.noConfusion h, trivial⟩,
      ⟨hplayed.2.2.2.2.2.1, fun h => Bool.noConfusion h, fun _ => ⟨fun _ _ => by decide +kernel, by decide +kernel⟩⟩,
      trivial⟩
  have honce := keys_once plain typing
  refine ⟨hplayed, hfair, (honce.1 hplayed).1, hheld, ?_⟩
  rw [(honce.2 hfair).1, hheld]
  rfl

/-- Escape with Control and Command is not stored, so that nothing becomes of it. -/
theorem escape_unstored :
    Machine.Guarded (step plain) Op.Played powerOn
        [.key 224 false false noKey, .key 226 false false noKey, .key 41 false false noKey] ∧
      scancodeMapped plain.keys 41 = adbEscape ∧ isModifier adbEscape = false ∧
        (Machine.run (step plain) powerOn
          [.key 224 false false noKey, .key 226 false false noKey, .key 41 false false noKey]).history.stored = [] := by
  have hkey : ∀ (s : KeyGloo) scancode, s.host.keyboard.id = 0x02 ∧ s.autoPollEnabled = true →
      Op.Played s (.key scancode false false noKey) := fun _ _ h _ => h
  refine ⟨⟨hkey _ _ (by decide +kernel), hkey _ _ (by decide +kernel), hkey _ _ (by decide +kernel), trivial⟩, ?_⟩
  exact ⟨by decide +kernel, by decide +kernel, by decide +kernel⟩

end

end GSSquared.Adb.KeyGloo
