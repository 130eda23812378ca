/-
Every key that is stored is delivered to the latch once, in order, or is accounted for otherwise.
-/
import GSSquared.Adb.Bounds
import GSSquared.Lib.Passage

set_option linter.all false

namespace GSSquared.Adb

open Bits

structure Keyboard.Idle (k : Keyboard) : Prop where
  queue : k.keyqueue = []
  size : (k.registers 0).size = 2
  low : (k.registers 0).data 0 = 0xFF
  high : (k.registers 0).data 1 = 0xFF

structure Keyboard.Pending (code : Byte) (k : Keyboard) : Prop where
  queue : k.keyqueue = []
  size : (k.registers 0).size = 2
  low : (k.registers 0).data 0 = code
  high : (k.registers 0).data 1 = if code = adbPower then adbPower else 0xFF

namespace Keyboard

variable {k : Keyboard}

theorem Idle.flush (hk : k.Idle) : k.flush.Idle := ⟨rfl, hk.size, rfl, rfl⟩

theorem Idle.setRegister (hk : k.Idle) (r : Register) :
    Idle { k with toDevice := k.toDevice.setRegister 3 r } := ⟨hk.queue, hk.size, hk.low, hk.high⟩

theorem Idle.reset (hk : k.Idle) : k.reset.Idle := ⟨rfl, hk.size, rfl, rfl⟩

theorem Idle.listen (hk : k.Idle) (reg : Nat) (msg : Register) : (k.listen reg msg).Idle := by
  unfold Keyboard.listen
  split
  · exact ⟨hk.queue, hk.size, hk.low, hk.high⟩
  · exact hk

theorem Idle.talk (hk : k.Idle) (reg : Nat) : (k.talk reg).2.Idle := by
  unfold Keyboard.talk
  split
  · exact ⟨hk.queue, hk.size, rfl, rfl⟩
  · exact hk

theorem Idle.processEvent (hk : k.Idle) (e : KeyEvent) : (k.processEvent (some e)).Pending e.code := by
  have henqueued : k.enqueueKey e = { k with keyqueue := [e] } := by
    have hroom : ¬ k.keyqueue.length = 16 := by
      rw [hk.queue]
      decide
    rw [enqueueKey, if_neg hroom, hk.queue]
    rfl
  have hlow : (k.registers 0).data 0 = 0xFF := hk.low
  show (k.enqueueKey e).fill.Pending e.code
  rw [henqueued]
  unfold fill
  dsimp only
  rw [if_pos hlow]
  by_cases hpower : e.code = adbPower
  · rw [if_pos hpower]
    exact ⟨rfl, hk.size, rfl, hpower.trans (if_pos hpower).symm⟩
  · rw [if_neg hpower]
    exact ⟨rfl, hk.size, rfl, hk.high.trans (if_neg hpower).symm⟩

theorem Idle.processNone (hk : k.Idle) : (k.processEvent none).Pending 0xFF := by
  have hnone : k.processEvent none = k := by
    unfold Keyboard.processEvent fill
    rw [hk.queue]
  rw [hnone]
  exact ⟨hk.queue, hk.size, hk.low, hk.high⟩

theorem Pending.talk {code : Byte} (hk : k.Pending code) : (k.talk 0).2.Idle := ⟨hk.queue, hk.size, rfl, rfl⟩

end Keyboard

namespace Host

def Idle (h : Host) : Prop := h.keyboard.Idle

variable {h : Host}

theorem idle_init : Idle {} := ⟨rfl, rfl, rfl, rfl⟩

theorem Idle.reset (hh : h.Idle) : h.reset.Idle := Keyboard.Idle.reset hh

theorem Idle.flush (hh : h.Idle) (addr : Byte) : (h.flush addr).Idle := by
  unfold Host.flush
  split
  · exact Keyboard.Idle.flush hh
  split
  · exact hh
  · exact hh

theorem Idle.listen (hh : h.Idle) (addr : Byte) (reg : Nat) (msg : Register) : (h.listen addr reg msg).Idle := by
  unfold Host.listen
  split
  · exact Keyboard.Idle.listen hh reg msg
  split
  · exact hh
  · exact hh

theorem Idle.talk (hh : h.Idle) (addr : Byte) (reg : Nat) (msg : Register) : (h.talk addr reg msg).2.Idle := by
  unfold Host.talk
  split
  · exact Keyboard.Idle.talk hh reg
  split
  · exact hh
  · exact hh

theorem Idle.setSrqEnable (hh : h.Idle) (addr : Byte) (enable : Bool) : (h.setSrqEnable addr enable).Idle := by
  unfold Host.setSrqEnable
  split
  · exact Keyboard.Idle.setRegister hh _
  split
  · exact hh
  · exact hh

end Host

namespace KeyGloo

def passage (s : KeyGloo) : Passage where
  next := s.history.stored.length
  waiting := s.ringTags
  delivered := s.history.delivered
  dropped := s.history.dropped.map Prod.fst
  discarded := s.history.discarded

/-- Each key that has been stored is accounted for, and the ring and the latch have the keys whose
numbers are there.  The ring was full when a key was dropped, and out of use when one was overwritten. -/
structure Kept (s : KeyGloo) : Prop where
  ring : s.Ring
  sound : s.passage.Sound
  contents : ∀ k < s.ringCount, s.history.stored[s.history.places ((s.inpt + k) % 16)]? =
    some (s.keyCodes ((s.inpt + k) % 16), s.keyMods ((s.inpt + k) % 16))
  latch : s.latchFull = true → s.history.delivered.getLast? = some s.history.latch ∧
    ∃ code mods, s.history.stored[s.history.latch]? = some (code, mods) ∧ s.latchCode = code ||| 0x80 ∧
      s.latchMods = mods
  dropped : ∀ d ∈ s.history.dropped, d.2 = 15
  overwritten : ∀ o ∈ s.history.overwritten, o.1 ∈ s.history.delivered ∧ o.2.getLsbD 4 = false

structure Told (s : KeyGloo) : Prop extends Kept s where
  waiting : s.inpt ≠ s.outpt → s.latchFull = true ∧ s.keyboardBufferEnabled = true

section

variable {s t u : KeyGloo}

def desk (s : KeyGloo) : Nat × Nat × (Nat → Byte) × (Nat → Byte) × Byte × Byte × History :=
  (s.inpt, s.outpt, s.keyCodes, s.keyMods, s.latchCode, s.latchMods, s.history)

theorem Kept.of_desk (hs : s.Kept) (h : t.desk = s.desk) : t.Kept := by
  unfold desk at h
  simp only [Prod.mk.injEq] at h
  obtain ⟨hinpt, houtpt, hcodes, hmods, hcode, hmod, hhistory⟩ := h
  have hcount : t.ringCount = s.ringCount := by rw [ringCount, ringCount, hinpt, houtpt]
  have hfull : t.latchFull = s.latchFull := by rw [latchFull, latchFull, hcode]
  refine ⟨⟨?_, ?_⟩, ?_, ?_, ?_, ?_, ?_⟩
  · rw [hinpt]
    exact hs.ring.inpt
  · rw [houtpt]
    exact hs.ring.outpt
  · rw [show t.passage = s.passage by rw [passage, passage, ringTags, ringTags, hhistory, hinpt, hcount]]
    exact hs.sound
  · rw [hcount, hhistory, hinpt, hcodes, hmods]
    exact hs.contents
  · rw [hfull, hhistory, hcode, hmod]
    exact hs.latch
  · rw [hhistory]
    exact hs.dropped
  · rw [hhistory]
    exact hs.overwritten

theorem Told.of_desk (hs : s.Told) (h : t.desk = s.desk)
    (henabled : s.keyboardBufferEnabled = true → t.keyboardBufferEnabled = true) : t.Told where
  toKept := hs.toKept.of_desk h
  waiting := by
    have hinpt : t.inpt = s.inpt := congrArg (fun d => d.1) h
    have houtpt : t.outpt = s.outpt := congrArg (fun d => d.2.1) h
    have hcode : t.latchCode = s.latchCode := congrArg (fun d => d.2.2.2.2.1) h
    rw [hinpt, houtpt, latchFull, hcode]
    exact fun hne => ⟨(hs.waiting hne).1, henabled (hs.waiting hne).2⟩

theorem Told.empty_of_disabled (hs : s.Told) (hdisabled : s.keyboardBufferEnabled = false) : s.inpt = s.outpt := by
  by_cases hne : s.inpt = s.outpt
  · exact hne
  · exact absurd (hdisabled.symm.trans (hs.waiting hne).2) Bool.false_ne_true

theorem ringCount_of_empty (h : s.inpt = s.outpt) : s.ringCount = 0 := by
  unfold ringCount
  omega

theorem ringTags_of_empty (h : s.inpt = s.outpt) : s.ringTags = [] := by
  rw [ringTags, ringCount_of_empty h]
  rfl

theorem stored_append {l m : List (Byte × Byte)} {i : Nat} {key : Byte × Byte} (h : l[i]? = some key) :
    (l ++ m)[i]? = some key := by
  obtain ⟨hlt, _⟩ := List.getElem?_eq_some_iff.mp h
  rw [List.getElem?_append_left hlt]
  exact h

theorem stored_last (l : List (Byte × Byte)) (key : Byte × Byte) : (l ++ [key])[l.length]? = some key :=
  List.getElem?_concat_length

theorem latchFull_or (code : Byte) : (code ||| 0x80).getLsbD 7 = true := by
  revert code
  decide

theorem Told.flushKeyQueue (hs : s.Told) : s.flushKeyQueue.Told := by
  have hempty : s.flushKeyQueue.inpt = s.flushKeyQueue.outpt := rfl
  have hpassage : s.flushKeyQueue.passage = s.passage.discard := by
    unfold passage
    rw [ringTags_of_empty hempty]
    rfl
  refine ⟨⟨ring_flushKeyQueue, ?_, fun k hk => ?_, hs.latch, hs.dropped, hs.overwritten⟩, fun h => absurd hempty h⟩
  · rw [hpassage]
    exact hs.sound.discard
  · rw [ringCount_of_empty hempty] at hk
    exact absurd hk (Nat.not_lt_zero k)

theorem Told.clearLatch (hs : s.Told) (hempty : s.inpt = s.outpt) : s.clearLatch.Told where
  ring := ⟨hs.ring.inpt, hs.ring.outpt⟩
  sound := hs.sound
  contents := hs.contents
  latch h := absurd (show (0 : Byte).getLsbD 7 = true from h) (by decide)
  dropped := hs.dropped
  overwritten := hs.overwritten
  waiting h := absurd hempty h

structure Loaded (s t : KeyGloo) : Prop where
  inpt : t.inpt = after s.inpt
  outpt : t.outpt = s.outpt
  keys : t.keyCodes = s.keyCodes ∧ t.keyMods = s.keyMods
  latch : t.latchCode = s.keyCodes s.inpt ||| 0x80 ∧ t.latchMods = s.keyMods s.inpt
  history : t.history = { s.history with
    latch := s.history.places s.inpt, delivered := s.history.delivered ++ [s.history.places s.inpt] }

theorem loaded (hne : s.inpt ≠ s.outpt) (hfree : ¬ s.latchFull = true) : Loaded s s.loadKeyFromBuffer := by
  unfold KeyGloo.loadKeyFromBuffer
  rw [if_neg hne, if_neg hfree]
  exact ⟨toNat_after _, rfl, ⟨rfl, rfl⟩, ⟨rfl, rfl⟩, rfl⟩

theorem Loaded.kept (h : Loaded s t) (hne : s.inpt ≠ s.outpt) (hs : s.Kept) : t.Kept := by
  have hinpt := hs.ring.inpt
  have houtpt := hs.ring.outpt
  have hcount : s.ringCount = t.ringCount + 1 := by
    unfold ringCount
    rw [h.inpt, h.outpt]
    unfold after
    omega
  have htags : s.ringTags = s.history.places s.inpt :: t.ringTags := by
    unfold ringTags
    rw [hcount, Circular.window_pop, Nat.mod_eq_of_lt hinpt, h.inpt, h.history]
    rfl
  have hfirst : s.history.stored[s.history.places s.inpt]? = some (s.keyCodes s.inpt, s.keyMods s.inpt) := by
    have hplace := hs.contents 0 (by omega)
    rw [Nat.add_zero, Nat.mod_eq_of_lt hinpt] at hplace
    exact hplace
  refine ⟨⟨?_, ?_⟩, ?_, fun k hk => ?_, fun _ => ⟨?_, s.keyCodes s.inpt, s.keyMods s.inpt, ?_, h.latch⟩, ?_, ?_⟩
  · rw [h.inpt]
    exact after_lt _
  · rw [h.outpt]
    exact houtpt
  · have hsound := hs.sound.deliver htags
    unfold passage
    rw [h.history]
    exact hsound
  · have hplace := hs.contents (k + 1) (by omega)
    have hnext : (t.inpt + k) % 16 = (s.inpt + (k + 1)) % 16 := by
      rw [h.inpt]
      unfold after
      omega
    rw [hnext, h.history, h.keys.1, h.keys.2]
    exact hplace
  · rw [h.history]
    exact List.getLast?_concat
  · rw [h.history]
    exact hfirst
  · rw [h.history]
    exact hs.dropped
  · rw [h.history]
    intro o ho
    exact ⟨List.mem_append_left _ (hs.overwritten o ho).1, (hs.overwritten o ho).2⟩

theorem Kept.loadKeyFromBuffer (hs : s.Kept) : s.loadKeyFromBuffer.Kept := by
  by_cases hempty : s.inpt = s.outpt
  · rw [KeyGloo.loadKeyFromBuffer, if_pos hempty]
    exact hs
  by_cases hfull : s.latchFull = true
  · rw [KeyGloo.loadKeyFromBuffer, if_neg hempty, if_pos hfull]
    exact hs
  exact (loaded hempty hfull).kept hempty hs

theorem modesByte_load : s.loadKeyFromBuffer.modesByte = s.modesByte := by
  unfold KeyGloo.loadKeyFromBuffer
  split
  · rfl
  split
  · rfl
  · rfl

theorem Kept.told_load (hs : s.Kept) (henabled : s.keyboardBufferEnabled = true) : s.loadKeyFromBuffer.Told where
  toKept := hs.loadKeyFromBuffer
  waiting := by
    have henabled' : s.loadKeyFromBuffer.keyboardBufferEnabled = true := by
      rw [keyboardBufferEnabled, modesByte_load]
      exact henabled
    intro hne
    refine ⟨?_, henabled'⟩
    by_cases hempty : s.inpt = s.outpt
    · rw [KeyGloo.loadKeyFromBuffer, if_pos hempty] at hne
      exact absurd hempty hne
    by_cases hfull : s.latchFull = true
    · rw [KeyGloo.loadKeyFromBuffer, if_neg hempty, if_pos hfull]
      exact hfull
    · rw [latchFull, (loaded hempty hfull).latch.1]
      exact latchFull_or _

theorem Told.storeToLatch (hs : s.Told) (hdisabled : s.keyboardBufferEnabled = false) (code mods : Byte) :
    (s.storeToLatch code mods).Told := by
  have hempty := hs.empty_of_disabled hdisabled
  have hcount : (s.storeToLatch code mods).ringCount = 0 := ringCount_of_empty hempty
  have hpassage : (s.storeToLatch code mods).passage = s.passage.pass := by
    unfold passage Passage.pass
    rw [ringTags_of_empty (s := s.storeToLatch code mods) hempty, ringTags_of_empty hempty]
    show Passage.mk (s.history.stored ++ [(code, mods)]).length _ _ _ _ = _
    rw [List.length_append]
    rfl
  refine ⟨⟨⟨hs.ring.inpt, hs.ring.outpt⟩, ?_, fun k hk => ?_, fun _ => ⟨?_, code, mods, ?_, rfl, rfl⟩, hs.dropped, ?_⟩,
    fun h => absurd hempty h⟩
  · rw [hpassage]
    exact hs.sound.pass (ringTags_of_empty hempty)
  · rw [hcount] at hk
    exact absurd hk (Nat.not_lt_zero k)
  · exact List.getLast?_concat
  · exact stored_last _ _
  · intro o ho
    have hdelivered : ∀ o ∈ s.history.overwritten,
        o.1 ∈ s.history.delivered ++ [s.history.stored.length] ∧ o.2.getLsbD 4 = false :=
      fun o ho => ⟨List.mem_append_left _ (hs.overwritten o ho).1, (hs.overwritten o ho).2⟩
    change o ∈ (if s.latchFull then s.history.overwritten ++ [(s.history.latch, s.modesByte)]
      else s.history.overwritten) at ho
    split at ho
    case isFalse => exact hdelivered o ho
    case isTrue hfull =>
      rcases List.mem_append.mp ho with ho | ho
      · exact hdelivered o ho
      · rw [List.mem_singleton.mp ho]
        exact ⟨List.mem_append_left _ (List.mem_of_getLast? (hs.latch hfull).1), hdisabled⟩

theorem Told.dropKey (hs : s.Told) (hfull : after s.outpt = s.inpt) (code mods : Byte) : (s.dropKey code mods).Told := by
  have hcount : s.ringCount = 15 := by
    have houtpt := hs.ring.outpt
    unfold after at hfull
    unfold ringCount
    omega
  have hpassage : (s.dropKey code mods).passage = s.passage.drop := by
    show Passage.mk (s.history.stored ++ [(code, mods)]).length _ _
      ((s.history.dropped ++ [(s.history.stored.length, s.ringCount)]).map Prod.fst) _ = _
    rw [List.length_append, List.map_append]
    rfl
  refine ⟨⟨⟨hs.ring.inpt, hs.ring.outpt⟩, ?_, fun k hk => stored_append (hs.contents k hk), fun h => ?_, ?_,
    hs.overwritten⟩, hs.waiting⟩
  · rw [hpassage]
    exact hs.sound.drop
  · obtain ⟨hlast, code, mods, hstored, hlatch⟩ := hs.latch h
    exact ⟨hlast, code, mods, stored_append hstored, hlatch⟩
  · intro d hd
    rcases List.mem_append.mp hd with hd | hd
    · exact hs.dropped d hd
    · rw [List.mem_singleton.mp hd]
      exact hcount

theorem Told.storeToRing (hs : s.Told) (hroom : after s.outpt ≠ s.inpt) (code mods : Byte) :
    (s.storeToRing code mods).Kept := by
  have hinpt := hs.ring.inpt
  have houtpt := hs.ring.outpt
  have hnext : (s.storeToRing code mods).outpt = after s.outpt := toNat_after _
  have hcount : (s.storeToRing code mods).ringCount = s.ringCount + 1 := by
    unfold ringCount
    rw [hnext]
    unfold after at hroom ⊢
    show ((s.outpt + 1) % 16 + 16 - s.inpt) % 16 = (s.outpt + 16 - s.inpt) % 16 + 1
    omega
  have hlast : (s.inpt + s.ringCount) % 16 = s.outpt := by
    unfold ringCount
    omega
  have hroom' : s.ringCount < 16 := Nat.mod_lt _ (Nat.zero_lt_succ 15)
  have htags : (s.storeToRing code mods).ringTags = s.ringTags ++ [s.history.stored.length] := by
    unfold ringTags
    rw [hcount]
    apply Circular.window_push hroom'
    · show (if (s.inpt + s.ringCount) % 16 = s.outpt then _ else _) = _
      rw [if_pos hlast]
    · intro i hi
      change i ≠ (s.inpt + s.ringCount) % 16 at hi
      rw [hlast] at hi
      exact if_neg hi
  have hpassage : (s.storeToRing code mods).passage = s.passage.come := by
    unfold passage Passage.come
    rw [htags]
    show Passage.mk (s.history.stored ++ [(code, mods)]).length _ _ _ _ = _
    rw [List.length_append]
    rfl
  refine ⟨⟨hinpt, ?_⟩, ?_, fun k hk => ?_, fun h => ?_, hs.dropped, hs.overwritten⟩
  · rw [hnext]
    exact after_lt _
  · rw [hpassage]
    exact hs.sound.come
  · show (s.history.stored ++ [(code, mods)])[if (s.inpt + k) % 16 = s.outpt then s.history.stored.length
        else s.history.places ((s.inpt + k) % 16)]? =
      some (if (s.inpt + k) % 16 = s.outpt then code else s.keyCodes ((s.inpt + k) % 16),
        if (s.inpt + k) % 16 = s.outpt then mods else s.keyMods ((s.inpt + k) % 16))
    by_cases hplace : (s.inpt + k) % 16 = s.outpt
    · rw [if_pos hplace, if_pos hplace, if_pos hplace]
      exact stored_last _ _
    · have hlt : k < s.ringCount := by
        have hne : k ≠ s.ringCount := fun h => hplace (h ▸ hlast)
        omega
      rw [if_neg hplace, if_neg hplace, if_neg hplace]
      exact stored_append (hs.contents k hlt)
  · obtain ⟨hlatest, code', mods', hstored, hlatch⟩ := hs.latch h
    exact ⟨hlatest, code', mods', stored_append hstored, hlatch⟩

theorem Told.storeKeyToBuffer (hs : s.Told) (c : Config) (code mods : Byte) :
    (s.storeKeyToBuffer c code mods).Told := by
  unfold KeyGloo.storeKeyToBuffer
  split
  · exact hs
  split
  case isTrue hdisabled => exact hs.storeToLatch hdisabled code mods
  case isFalse henabled =>
    have henabled' : (s.storeToRing code mods).keyboardBufferEnabled = true := (Bool.not_eq_false _).mp henabled
    split
    case isTrue hfull => exact hs.dropKey hfull code mods
    case isFalse hroom =>
      have hkept := hs.storeToRing hroom code mods
      dsimp only
      split
      case isTrue hlatched => exact ⟨hkept, fun _ => ⟨hlatched, henabled'⟩⟩
      case isFalse => exact hkept.told_load henabled'

theorem Told.writeKeyStrobe (hs : s.Told) : s.writeKeyStrobe.Told := by
  have hclear : ∀ code : Byte, (code &&& 0x7F).getLsbD 7 = false := by decide
  let t := updateInterruptStatus { s with latchCode := s.latchCode &&& 0x7F, kbRegisterFull := false }
  have hkept : t.Kept := by
    refine ⟨⟨hs.ring.inpt, hs.ring.outpt⟩, hs.sound, hs.contents, fun h => ?_, hs.dropped, hs.overwritten⟩
    exact absurd ((hclear s.latchCode).symm.trans h) Bool.false_ne_true
  unfold KeyGloo.writeKeyStrobe
  dsimp only
  split
  case isTrue henabled => exact hkept.told_load henabled
  case isFalse hdisabled =>
    exact ⟨hkept, fun h => absurd (hs.empty_of_disabled ((Bool.not_eq_true _).mp hdisabled)) h⟩

end

end KeyGloo

end GSSquared.Adb
