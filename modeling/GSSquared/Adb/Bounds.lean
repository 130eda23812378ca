/-
What the keyboard microcontroller reaches for is there.
-/
import GSSquared.Adb.Commands
import GSSquared.Lib.Trail

set_option linter.all false

namespace GSSquared.Adb

open Bits

def Device.Sized (d : Device) : Prop := ∀ n, (d.registers n).size ≤ 8

namespace Device

variable {d : Device}

theorem Sized.setRegister (hd : d.Sized) {n : Nat} {r : Register} (hr : r.size ≤ 8) : (d.setRegister n r).Sized := by
  intro m
  show (if m = n then r else d.registers m).size ≤ 8
  split
  · exact hr
  · exact hd m

theorem Sized.resetToDefaultAddress (hd : d.Sized) : d.resetToDefaultAddress.Sized :=
  hd.setRegister (Nat.le_of_ble_eq_true rfl)

theorem Sized.setSrqEnable (hd : d.Sized) (enable : Bool) : (d.setSrqEnable enable).Sized := hd.setRegister (hd 3)

end Device

namespace Keyboard

variable {k : Keyboard}

theorem sized_setKeyData (hk : k.toDevice.Sized) (i : Nat) (value : Byte) : (k.setKeyData i value).toDevice.Sized :=
  hk.setRegister (hk 0)

theorem sized_fillHigh (hk : k.toDevice.Sized) : k.fillHigh.toDevice.Sized := by
  unfold fillHigh
  split
  · split
    · exact sized_setKeyData hk 1 _
    · exact hk
  · exact hk

theorem sized_fill (hk : k.toDevice.Sized) : k.fill.toDevice.Sized := by
  unfold fill
  split
  case h_1 e rest _ =>
    split
    · have hlow : Device.Sized { k.setKeyData 0 e.code with keyqueue := rest }.toDevice := sized_setKeyData hk 0 _
      split
      · exact sized_setKeyData (k := { k.setKeyData 0 e.code with keyqueue := rest }) hlow 1 _
      · exact sized_fillHigh hlow
    · exact sized_fillHigh hk
  case h_2 => exact hk

theorem sized_processEvent (hk : k.toDevice.Sized) (e : Option KeyEvent) : (k.processEvent e).toDevice.Sized := by
  unfold processEvent
  split
  · apply sized_fill
    unfold enqueueKey
    split
    · exact hk
    · exact hk
  · exact sized_fill hk

theorem id_fillHigh : k.fillHigh.id = k.id := by
  unfold fillHigh
  split
  · split
    · rfl
    · rfl
  · rfl

theorem id_fill : k.fill.id = k.id := by
  unfold fill
  split
  · split
    · split
      · rfl
      · exact id_fillHigh
    · exact id_fillHigh
  · rfl

theorem id_processEvent (e : Option KeyEvent) : (k.processEvent e).id = k.id := by
  unfold processEvent
  split
  · rw [id_fill]
    unfold enqueueKey
    split
    · rfl
    · rfl
  · exact id_fill

theorem sized_flush (hk : k.toDevice.Sized) : k.flush.toDevice.Sized :=
  sized_setKeyData (sized_setKeyData hk 0 0xFF) 1 0xFF

theorem sized_listen (hk : k.toDevice.Sized) {reg : Nat} {msg : Register} (hmsg : msg.size ≤ 8) :
    (k.listen reg msg).toDevice.Sized := by
  unfold listen
  split
  · exact hk.setRegister hmsg
  · exact hk

theorem sized_talk (hk : k.toDevice.Sized) (reg : Nat) : (k.talk reg).1.size ≤ 8 ∧ (k.talk reg).2.toDevice.Sized := by
  refine ⟨hk reg, ?_⟩
  unfold talk
  split
  · exact sized_setKeyData (sized_setKeyData hk 0 0xFF) 1 0xFF
  · exact hk

end Keyboard

namespace Mouse

variable {m : Mouse}

theorem sized_clear (hm : m.toDevice.Sized) : m.clear.toDevice.Sized := hm.setRegister (hm 0)

theorem sized_listen (hm : m.toDevice.Sized) {reg : Nat} {msg : Register} (hmsg : msg.size ≤ 8) :
    (m.listen reg msg).toDevice.Sized := by
  unfold listen
  split
  · exact hm.setRegister hmsg
  · exact hm

theorem sized_talk (hm : m.toDevice.Sized) (reg : Nat) : (m.talk reg).1.size ≤ 8 ∧ (m.talk reg).2.toDevice.Sized := by
  unfold talk
  split
  · split
    · exact ⟨hm 0, hm⟩
    · exact ⟨Nat.zero_le 8, hm⟩
  · exact ⟨hm reg, hm⟩

end Mouse

namespace Host

/-- Both devices' registers are at most eight bytes long. -/
structure Sized (h : Host) : Prop where
  keyboard : h.keyboard.toDevice.Sized
  mouse : h.mouse.toDevice.Sized

variable {h : Host}

theorem sized_init : Sized {} := by
  have hdevice : ∀ (id : Byte) (zero : Register), zero.size = 2 → (Device.init id zero).Sized := by
    intro id zero hzero n
    unfold Device.init
    dsimp only
    split
    · omega
    split
    · exact Nat.le_of_ble_eq_true rfl
    · exact Nat.le_of_ble_eq_true rfl
  exact ⟨hdevice _ _ rfl, hdevice _ _ rfl⟩

theorem Sized.reset (hs : h.Sized) : h.reset.Sized :=
  ⟨Keyboard.sized_flush hs.keyboard.resetToDefaultAddress, Mouse.sized_clear hs.mouse.resetToDefaultAddress⟩

theorem Sized.flush (hs : h.Sized) (addr : Byte) : (h.flush addr).Sized := by
  unfold Host.flush
  split
  · exact ⟨Keyboard.sized_flush hs.keyboard, hs.mouse⟩
  split
  · exact ⟨hs.keyboard, Mouse.sized_clear hs.mouse⟩
  · exact hs

theorem Sized.listen (hs : h.Sized) {addr : Byte} {reg : Nat} {msg : Register} (hmsg : msg.size ≤ 8) :
    (h.listen addr reg msg).Sized := by
  unfold Host.listen
  split
  · exact ⟨Keyboard.sized_listen hs.keyboard hmsg, hs.mouse⟩
  split
  · exact ⟨hs.keyboard, Mouse.sized_listen hs.mouse hmsg⟩
  · exact hs

theorem Sized.setSrqEnable (hs : h.Sized) (addr : Byte) (enable : Bool) : (h.setSrqEnable addr enable).Sized := by
  unfold Host.setSrqEnable
  split
  · exact ⟨hs.keyboard.setSrqEnable enable, hs.mouse⟩
  split
  · exact ⟨hs.keyboard, hs.mouse.setSrqEnable enable⟩
  · exact hs

theorem Sized.talk (hs : h.Sized) (addr : Byte) (reg : Nat) (msg : Register) :
    (h.talk addr reg msg).2.Sized ∧ (h.answers addr = true → (h.talk addr reg msg).1.size ≤ 8) := by
  unfold Host.talk
  split
  case isTrue =>
    obtain ⟨hsize, hsized⟩ := Keyboard.sized_talk hs.keyboard reg
    exact ⟨⟨hsized, hs.mouse⟩, fun _ => hsize⟩
  case isFalse hkeyboard =>
    split
    case isTrue =>
      obtain ⟨hsize, hsized⟩ := Mouse.sized_talk hs.mouse reg
      exact ⟨⟨hs.keyboard, hsized⟩, fun _ => hsize⟩
    case isFalse hmouse =>
      refine ⟨hs, fun hanswers => ?_⟩
      unfold answers at hanswers
      rw [Bool.or_eq_true, beq_iff_eq, beq_iff_eq] at hanswers
      exact absurd hanswers (not_or.mpr ⟨hkeyboard, hmouse⟩)

end Host

namespace KeyGloo

structure Ring (s : KeyGloo) : Prop where
  inpt : s.inpt < 16
  outpt : s.outpt < 16

def counters (s : KeyGloo) : (Nat → Byte) × Nat × Nat × Nat × Nat :=
  (s.cmd, s.cmdIndex, s.cmdBytes, s.responseIndex, s.responseBytes)

/-- The command and the answer stay where they are, and what is reached for is there. -/
structure Steady (s t : KeyGloo) : Prop where
  counters : t.counters = s.counters
  sized : s.host.Sized → t.host.Sized
  ring : s.Ring → t.Ring
  log : s.Ring → s.host.Sized → ∃ extra, t.log = s.log ++ extra ∧ ∀ a ∈ extra, a.InRange

section

variable {s t u : KeyGloo}

namespace Steady

theorem trans (hst : Steady s t) (htu : Steady t u) : Steady s u where
  counters := htu.counters.trans hst.counters
  sized h := htu.sized (hst.sized h)
  ring h := htu.ring (hst.ring h)
  log hring hsized := by
    obtain ⟨xs, hxs, hin⟩ := hst.log hring hsized
    obtain ⟨ys, hys, hin'⟩ := htu.log (hst.ring hring) (hst.sized hsized)
    refine ⟨xs ++ ys, by rw [hys, hxs, List.append_assoc], fun a ha => ?_⟩
    rcases List.mem_append.mp ha with ha | ha
    · exact hin a ha
    · exact hin' a ha

theorem quiet (hcounters : t.counters = s.counters) (hhost : t.host = s.host) (hinpt : t.inpt = s.inpt)
    (houtpt : t.outpt = s.outpt) (hlog : t.log = s.log) : Steady s t where
  counters := hcounters
  sized h := by rw [hhost]; exact h
  ring h := ⟨by rw [hinpt]; exact h.inpt, by rw [houtpt]; exact h.outpt⟩
  log _ _ := ⟨[], by rw [hlog, List.append_nil], fun _ ha => absurd ha List.not_mem_nil⟩

theorem refl (s : KeyGloo) : Steady s s := quiet rfl rfl rfl rfl rfl

theorem touchAll (ts : List Touch) (hts : s.Ring → s.host.Sized → ∀ a ∈ ts, a.InRange) : Steady s (s.touchAll ts) where
  counters := rfl
  sized h := h
  ring h := ⟨h.inpt, h.outpt⟩
  log hring hsized := ⟨ts, rfl, hts hring hsized⟩

theorem touch {a : Touch} (ha : s.Ring → s.host.Sized → a.InRange) : Steady s (s.touch a) := by
  apply touchAll [a]
  intro hring hsized b hb
  rw [List.mem_singleton.mp hb]
  exact ha hring hsized

theorem poke {i : Nat} {value : Byte} (hi : i ≠ atInpt) (ho : i ≠ atOutpt) : Steady s (s.poke i value) := by
  have hother : ∀ j, i ≠ j → (s.poke i value).ram j = s.ram j := fun j hj => if_neg (Ne.symm hj)
  exact quiet rfl rfl (congrArg BitVec.toNat (hother _ hi)) (congrArg BitVec.toNat (hother _ ho)) rfl

theorem updateInterruptStatus : Steady s s.updateInterruptStatus := quiet rfl rfl rfl rfl rfl

end Steady

theorem after_lt (i : Nat) : after i < 16 := Nat.mod_lt _ (by decide)

theorem toNat_after (i : Nat) : (BitVec.ofNat 8 (after i)).toNat = after i :=
  Nat.mod_eq_of_lt (Nat.lt_trans (after_lt i) (by decide))

theorem ring_flushKeyQueue : s.flushKeyQueue.Ring := ⟨Nat.zero_lt_succ 15, Nat.zero_lt_succ 15⟩

theorem Steady.flushKeyQueue : Steady s s.flushKeyQueue where
  counters := rfl
  sized h := h
  ring _ := ring_flushKeyQueue
  log _ _ := ⟨[], (List.append_nil _).symm, fun _ ha => absurd ha List.not_mem_nil⟩

theorem Steady.flushBuffer : Steady s s.flushBuffer := flushKeyQueue.trans (quiet rfl rfl rfl rfl rfl)

theorem Steady.loadKeyFromBuffer : Steady s s.loadKeyFromBuffer := by
  unfold KeyGloo.loadKeyFromBuffer
  split
  · exact refl s
  split
  · exact refl s
  have htouch : Steady s (s.touchAll [.keyCodes s.inpt, .keyMods s.inpt]) := by
    apply touchAll
    intro hring _ a ha
    rcases List.mem_cons.mp ha with rfl | ha
    · exact hring.inpt
    · rw [List.mem_singleton.mp ha]
      exact hring.inpt
  apply htouch.trans
  refine ⟨rfl, fun h => h, fun h => ⟨?_, h.outpt⟩, fun _ _ => ⟨[], (List.append_nil _).symm, ?_⟩⟩
  · show (BitVec.ofNat 8 (after s.inpt)).toNat < 16
    rw [toNat_after]
    exact after_lt _
  · exact fun _ ha => absurd ha List.not_mem_nil

theorem Steady.storeToRing (code mods : Byte) : Steady s (s.storeToRing code mods) := by
  have htouch : Steady s (s.touchAll [.keyCodes s.outpt, .keyMods s.outpt]) := by
    apply touchAll
    intro hring _ a ha
    rcases List.mem_cons.mp ha with rfl | ha
    · exact hring.outpt
    · rw [List.mem_singleton.mp ha]
      exact hring.outpt
  apply htouch.trans
  refine ⟨rfl, fun h => h, fun h => ⟨h.inpt, ?_⟩, fun _ _ => ⟨[], (List.append_nil _).symm, ?_⟩⟩
  · show (BitVec.ofNat 8 (after s.outpt)).toNat < 16
    rw [toNat_after]
    exact after_lt _
  · exact fun _ ha => absurd ha List.not_mem_nil

theorem Steady.storeKeyToBuffer (c : Config) (code mods : Byte) : Steady s (s.storeKeyToBuffer c code mods) := by
  unfold KeyGloo.storeKeyToBuffer
  split
  · exact refl s
  split
  · exact quiet rfl rfl rfl rfl rfl
  split
  · exact quiet rfl rfl rfl rfl rfl
  dsimp only
  split
  · exact storeToRing code mods
  · exact (storeToRing code mods).trans loadKeyFromBuffer

theorem Steady.mapped (code mods : Byte) : Steady s (s.mapped code mods).2 :=
  touch (fun _ _ => code.isLt)

theorem Steady.writeKeyStrobe : Steady s s.writeKeyStrobe := by
  have hclear : Steady s (KeyGloo.updateInterruptStatus { s with latchCode := s.latchCode &&& 0x7F, kbRegisterFull := false }) :=
    quiet rfl rfl rfl rfl rfl
  unfold KeyGloo.writeKeyStrobe
  dsimp only
  split
  · exact hclear.trans loadKeyFromBuffer
  · exact hclear

theorem registerData_inRange {n : Nat} (hn : n ≤ 8) : ∀ a ∈ (List.range n).map Touch.registerData, a.InRange := by
  intro a ha
  obtain ⟨i, hi, rfl⟩ := List.mem_map.mp ha
  exact Nat.lt_of_lt_of_le (List.mem_range.mp hi) hn

theorem Steady.talk (addr : Byte) (reg : Nat) (msg : Register) : Steady s (s.talk addr reg msg).2 where
  counters := rfl
  sized h := (h.talk addr reg msg).1
  ring h := ⟨h.inpt, h.outpt⟩
  log _ hsized := by
    refine ⟨_, rfl, ?_⟩
    split
    case isTrue hkeyboard =>
      have hanswers : s.host.answers addr = true := by
        unfold Host.answers
        rw [Bool.or_eq_true, beq_iff_eq]
        exact .inl hkeyboard
      exact registerData_inRange ((hsized.talk addr reg msg).2 hanswers)
    case isFalse => exact fun _ ha => absurd ha List.not_mem_nil

theorem updateModifier_cases {keycode : Byte} {down : Bool} (h : s.updateModifier keycode down = some t) :
    t = s ∨ ∃ k value, t = (s.poke atPrevmod s.currmod).poke atCurrmod (setBit k value s.currmod) := by
  unfold KeyGloo.updateModifier at h
  split at h
  · exact .inr ⟨_, _, (Option.some.inj h).symm⟩
  split at h
  · exact .inr ⟨_, _, (Option.some.inj h).symm⟩
  split at h
  · exact .inr ⟨_, _, (Option.some.inj h).symm⟩
  split at h
  · exact .inr ⟨_, _, (Option.some.inj h).symm⟩
  split at h
  · cases h
    split
    · exact .inl rfl
    · exact .inr ⟨_, _, rfl⟩
  · cases h

theorem Steady.updateModifier {keycode : Byte} {down : Bool} (h : s.updateModifier keycode down = some t) : Steady s t := by
  obtain rfl | ⟨k, value, rfl⟩ := updateModifier_cases h
  · exact refl t
  · exact (poke (by decide) (by decide)).trans (poke (by decide) (by decide))

theorem Steady.updateModifiersAt (r : Register) : ∀ (places : List Nat) (s : KeyGloo), (∀ i ∈ places, i < 8) →
    Steady s (KeyGloo.updateModifiersAt r places s).2 := by
  intro places
  induction places with
  | nil => intro s _; exact refl s
  | cons i places ih =>
    intro s hplaces
    have htouch : Steady s (s.touch (.registerData i)) := touch (fun _ _ => hplaces i List.mem_cons_self)
    unfold KeyGloo.updateModifiersAt
    dsimp only
    split
    case h_1 t hsome => exact htouch.trans (updateModifier hsome)
    case h_2 => exact htouch.trans (ih _ (fun j hj => hplaces j (List.mem_cons_of_mem i hj)))

theorem Steady.updateModifiersFromReg {r : Register} (hr : r.size ≤ 8) : Steady s (s.updateModifiersFromReg r).2 :=
  updateModifiersAt r _ s (fun _ hi => Nat.lt_of_lt_of_le (List.mem_range.mp hi) hr)

variable (c : Config)

theorem Steady.ordinaryKey (keycode : Byte) (down : Bool) : Steady s (s.ordinaryKey c keycode down) := by
  have hmapped : Steady s { (s.mapped keycode s.currmod).2 with lastKeyDown := (s.mapped keycode s.currmod).1 } :=
    (mapped keycode s.currmod).trans (quiet rfl rfl rfl rfl rfl)
  unfold KeyGloo.ordinaryKey KeyGloo.setRepeat
  split
  · exact hmapped.trans ((storeKeyToBuffer c _ _).trans (poke (by decide) (by decide)))
  · exact hmapped.trans (poke (by decide) (by decide))

theorem Steady.keyByte (byte : Byte) : Steady s (s.keyByte c byte) := by
  have hcount : ∀ down : Bool, Steady s (s.countKey down) := fun _ => quiet rfl rfl rfl rfl rfl
  have hdesk : ∀ u : KeyGloo, Steady u u.deskAccessory := fun _ => quiet rfl rfl rfl rfl rfl
  unfold KeyGloo.keyByte
  dsimp only
  split
  · exact (hcount _).trans flushBuffer
  split
  · split
    · exact hcount _
    · exact (hcount _).trans (hdesk _)
  · exact (hcount _).trans (ordinaryKey c _ _)

theorem Steady.autoPolled {r : Register} (hr : r.size ≤ 8) : Steady s (s.autoPolled c r) := by
  have hmodifiers : Steady s (s.updateModifiersFromReg r).2 := updateModifiersFromReg hr
  have htouch : Steady s ((s.updateModifiersFromReg r).2.touch (.registerData 0)) :=
    hmodifiers.trans (touch (fun _ _ => Nat.zero_lt_succ 7))
  unfold KeyGloo.autoPolled
  split
  · split
    · exact quiet rfl rfl rfl rfl rfl
    · exact refl s
  split
  · exact quiet rfl rfl rfl rfl rfl
  split
  · exact hmodifiers
  split
  · exact htouch
  · exact htouch.trans (keyByte c _)

theorem Steady.enqueued (scancode : Nat) (up : Bool) : Steady s (s.enqueued c scancode up) where
  counters := rfl
  sized h := ⟨Keyboard.sized_processEvent h.keyboard _, h.mouse⟩
  ring h := ⟨h.inpt, h.outpt⟩
  log _ _ := ⟨[], (List.append_nil _).symm, fun _ ha => absurd ha List.not_mem_nil⟩

theorem Steady.repeatKey : Steady s (s.repeatKey c) := by
  unfold KeyGloo.repeatKey
  split
  · exact refl s
  have hpoke : Steady s (s.poke atDncntr (s.ram atDncntr - 1)) := poke (by decide) (by decide)
  split
  · exact hpoke.trans ((storeKeyToBuffer c _ _).trans (poke (by decide) (by decide)))
  · exact hpoke

theorem Steady.pasteKey : Steady s (s.pasteKey c) := by
  unfold KeyGloo.pasteKey
  split
  · exact refl s
  split
  · exact refl s
  · exact (storeKeyToBuffer c _ _).trans (quiet rfl rfl rfl rfl rfl)

theorem Steady.frameHandler : Steady s (s.frameHandler c) := by
  have hcount : Steady (s.repeatKey c) (s.repeatKey c).countReset := quiet rfl rfl rfl rfl rfl
  exact (repeatKey c).trans (hcount.trans (pasteKey c))

end

end KeyGloo

end GSSquared.Adb
