/-
What the SCC's look at its devices leaves alone. Every access looks first at what the devices have
sent.
-/
import GSSquared.Serial.Z85C30

set_option linter.all false

namespace GSSquared.Serial

open Bits Wire

namespace Chan

section

variable {ch ch' ch'' : Chan}

theorem pushLineParams_eq (ch : Chan) : ∃ q l, ch.pushLineParams = { ch with qHost := q, lineParamsLast := l } := by
  unfold pushLineParams
  split
  · exact ⟨ch.qHost, ch.lineParamsLast, rfl⟩
  split
  · exact ⟨ch.qHost, ch.lineParamsLast, rfl⟩
  · extract_lets sent
    split
    · exact ⟨_, _, rfl⟩
    · exact ⟨_, ch.lineParamsLast, rfl⟩

theorem ctlUpdate_eq (force : Bool) (ch : Chan) : ∃ q l, ch.ctlUpdate force = { ch with qHost := q, lineCtlLast := l } := by
  unfold ctlUpdate
  extract_lets ctl sent
  split
  · split
    · exact ⟨_, _, rfl⟩
    · exact ⟨_, ch.lineCtlLast, rfl⟩
  · exact ⟨ch.qHost, ch.lineCtlLast, rfl⟩

theorem breakUpdate_eq (force : Bool) (ch : Chan) : ∃ q b, ch.breakUpdate force = { ch with qHost := q, breakOutLast := b } := by
  unfold breakUpdate
  extract_lets brk sent
  split
  · split
    · exact ⟨_, _, rfl⟩
    · exact ⟨_, ch.breakOutLast, rfl⟩
  · exact ⟨ch.qHost, ch.breakOutLast, rfl⟩

theorem linesOutUpdate_eq (force : Bool) (ch : Chan) : ∃ q l b,
    ch.linesOutUpdate force = { ch with qHost := q, lineCtlLast := l, breakOutLast := b } := by
  unfold linesOutUpdate
  split
  · exact ⟨ch.qHost, ch.lineCtlLast, ch.breakOutLast, rfl⟩
  · obtain ⟨q, l, hctl⟩ := ctlUpdate_eq force ch
    obtain ⟨q', b, hbreak⟩ := breakUpdate_eq force { ch with qHost := q, lineCtlLast := l }
    exact ⟨q', l, b, by rw [hctl, hbreak]⟩

structure Looked (ch ch' : Chan) : Prop where
  w : ch'.w = ch.w
  sel : ch'.regSelect = ch.regSelect
  waits : ch'.waiting = true → ch.waiting = true ∧ ch'.txIpLatch = ch.txIpLatch ∧
    (ch.autoEnables = true → ch.ctsIn = false → ch'.ctsIn = false)

theorem Looked.refl (ch : Chan) : Looked ch ch := ⟨rfl, rfl, fun h => ⟨h, rfl, fun _ hcts => hcts⟩⟩

theorem Looked.trans (h : Looked ch ch') (h' : Looked ch' ch'') : Looked ch ch'' where
  w := h'.w.trans h.w
  sel := h'.sel.trans h.sel
  waits hwait := by
    obtain ⟨hwait', hlatch', hcts'⟩ := h'.waits hwait
    obtain ⟨hwait, hlatch, hcts⟩ := h.waits hwait'
    have hauto : ch'.autoEnables = ch.autoEnables := by
      unfold autoEnables
      rw [h.w]
    exact ⟨hwait, hlatch'.trans hlatch, fun ha hc => hcts' (hauto.trans ha) (hcts ha hc)⟩

theorem Looked.same (hw : ch'.w = ch.w) (hsel : ch'.regSelect = ch.regSelect) (hwait : ch'.waiting = ch.waiting)
    (hlatch : ch'.txIpLatch = ch.txIpLatch) (hcts : ch'.ctsIn = ch.ctsIn) : Looked ch ch' :=
  ⟨hw, hsel, fun h => ⟨hwait ▸ h, hlatch, fun _ h => hcts.trans h⟩⟩

structure Settled (ch ch' : Chan) : Prop where
  w : ch'.w = ch.w
  sel : ch'.regSelect = ch.regSelect
  waits : ch'.waiting = true → ch.waiting = true ∧ ch'.txIpLatch = ch.txIpLatch ∧
    (ch.autoEnables = true → ch'.ctsIn = false)

theorem Settled.looked (h : Settled ch ch') : Looked ch ch' := by
  refine ⟨h.w, h.sel, fun hwait => ?_⟩
  obtain ⟨hwait', hlatch, hcts⟩ := h.waits hwait
  exact ⟨hwait', hlatch, fun ha _ => hcts ha⟩

theorem Looked.gone (hw : ch'.w = ch.w) (hsel : ch'.regSelect = ch.regSelect) (h : ch'.waiting = false) : Looked ch ch' :=
  ⟨hw, hsel, fun hwait => absurd (h.symm.trans hwait) Bool.noConfusion⟩

theorem waiting_of_empty (h : ch.txBufferEmpty = true) : ch.waiting = false := by
  rw [waiting, h, Bool.not_true, Bool.and_false]

theorem waiting_of_busy (h : ch.txInProgress = true) : ch.waiting = false := by
  rw [waiting, h, Bool.not_true, Bool.false_and]

theorem rxPush_txBufferEmpty (data : Byte) (ch : Chan) : (ch.rxPush data).txBufferEmpty = ch.txBufferEmpty := by
  have hbit : (setBit 0 true ch.rr0).getLsbD 2 = ch.rr0.getLsbD 2 := getLsbD_setBit true ch.rr0 (by decide) (by decide)
  unfold rxPush
  split <;> exact hbit

theorem load_txBufferEmpty (ch : Chan) : ch.load.txBufferEmpty = true :=
  getLsbD_setBit true ch.rr0 (by decide) (by decide)

theorem rxPush_same (data : Byte) (ch : Chan) : (ch.rxPush data).w = ch.w ∧ (ch.rxPush data).regSelect = ch.regSelect ∧
    (ch.rxPush data).txInProgress = ch.txInProgress ∧ (ch.rxPush data).txIpLatch = ch.txIpLatch ∧
    (ch.rxPush data).ctsIn = ch.ctsIn := by
  unfold rxPush
  split <;> exact ⟨rfl, rfl, rfl, rfl, rfl⟩

theorem rxPush_waiting (data : Byte) (ch : Chan) : (ch.rxPush data).waiting = ch.waiting := by
  unfold waiting
  rw [(rxPush_same data ch).2.2.1, rxPush_txBufferEmpty]

theorem looked_rxPush (data : Byte) (ch : Chan) : Looked ch (ch.rxPush data) := by
  obtain ⟨hw, hsel, hbusy, hlatch, hcts⟩ := rxPush_same data ch
  exact .same hw hsel (rxPush_waiting data ch) hlatch hcts

theorem looked_rxThrough (ch : Chan) : Looked ch ch.rxThrough :=
  have hpush := looked_rxPush ch.charRx { ch with rxInProgress := false }
  ⟨hpush.w, hpush.sel, hpush.waits⟩

theorem looked_landed (ch : Chan) : Looked ch { ch with rxStalled := false }.rxThrough :=
  have hthrough := looked_rxThrough { ch with rxStalled := false }
  ⟨hthrough.w, hthrough.sel, hthrough.waits⟩

theorem looked_startRx (now : Nat) (ch : Chan) : Looked ch (ch.startRx now) := by
  unfold startRx
  split <;> exact .same rfl rfl rfl rfl rfl

theorem looked_extLatch (ch : Chan) : Looked ch ch.extLatch := by
  unfold extLatch
  split
  · exact .refl ch
  split <;> exact .same rfl rfl rfl rfl rfl

theorem txThrough_same (ch : Chan) : ch.txThrough.w = ch.w ∧ ch.txThrough.regSelect = ch.regSelect ∧
    ch.txThrough.txBufferEmpty = ch.txBufferEmpty := by
  unfold txThrough
  extract_lets t
  split
  · split
    · obtain ⟨hw, hsel, -⟩ := rxPush_same t.txShift { t with charRx := t.txShift }
      exact ⟨hw, hsel, rxPush_txBufferEmpty _ _⟩
    · exact ⟨rfl, rfl, rfl⟩
  split <;> exact ⟨rfl, rfl, rfl⟩

end

end Chan

namespace Z85C30

open Chan

section

variable {s t u : Z85C30} {c : Channel} {f : Chan → Chan}

def Looks (s t : Z85C30) : Prop := t.timed = s.timed ∧ ∀ d, Looked (s.chan d) (t.chan d)

theorem Looks.refl (s : Z85C30) : Looks s s := ⟨rfl, fun d => .refl (s.chan d)⟩

theorem Looks.trans (h : Looks s t) (h' : Looks t u) : Looks s u :=
  ⟨h'.1.trans h.1, fun d => (h.2 d).trans (h'.2 d)⟩

theorem looks_modify (h : Looked (s.chan c) (f (s.chan c))) : Looks s (s.modify c f) := by
  refine ⟨modify_timed c f s, fun d => ?_⟩
  by_cases hd : d = c
  · subst hd
    rwa [chan_modify_self]
  · rw [chan_modify_ne hd]
    exact .refl _

theorem looks_update (s : Z85C30) : Looks s s.updateInterrupts := by
  refine ⟨rfl, fun d => ?_⟩
  cases d <;> exact .same rfl rfl rfl rfl rfl

theorem started_load (now : Nat) (ch : Chan) : ((ch.load.startTx now).w = ch.w ∧ (ch.load.startTx now).regSelect = ch.regSelect) ∧
    (ch.load.startTx now).waiting = false := by
  unfold startTx
  split <;> exact ⟨⟨rfl, rfl⟩, waiting_of_busy rfl⟩

theorem started_through (ch : Chan) :
    ({ ch.load with txStalled := false }.txThrough.w = ch.w ∧
      { ch.load with txStalled := false }.txThrough.regSelect = ch.regSelect) ∧
    { ch.load with txStalled := false }.txThrough.waiting = false := by
  obtain ⟨hw, hsel, hempty⟩ := txThrough_same { ch.load with txStalled := false }
  exact ⟨⟨hw, hsel⟩, waiting_of_empty (hempty.trans (load_txBufferEmpty ch))⟩

theorem looks_txLoadShift (c : Channel) (s : Z85C30) : Looks s (s.txLoadShift c) := by
  unfold txLoadShift
  split
  · exact .refl s
  split
  · obtain ⟨⟨hw, hsel⟩, hwait⟩ := started_load s.now (s.chan c)
    exact looks_modify (.gone hw hsel hwait)
  · obtain ⟨⟨hw, hsel⟩, hwait⟩ := started_through (s.chan c)
    exact (looks_modify (c := c) (.gone hw hsel hwait)).trans (looks_update _)

theorem waiting_update (c : Channel) (s : Z85C30) : (s.updateInterrupts.chan c).waiting = (s.chan c).waiting := by
  cases c <;> rfl

theorem txLoadShift_waiting (h : ((s.chan c).autoEnables && !(s.chan c).ctsIn) = false) :
    ((s.txLoadShift c).chan c).waiting = false := by
  unfold txLoadShift
  rw [if_neg (by rw [h]; exact Bool.false_ne_true)]
  split
  · rw [chan_modify_self]
    exact (started_load s.now (s.chan c)).2
  · rw [waiting_update, chan_modify_self]
    exact (started_through (s.chan c)).2

theorem settled_extUpdate (c : Channel) (s : Z85C30) : Looks s (s.extUpdate c) ∧ Settled (s.chan c) ((s.extUpdate c).chan c) := by
  have hlatch : Looked (s.chan c) ((s.modify c extLatch).chan c) := by
    rw [chan_modify_self]
    exact looked_extLatch _
  unfold extUpdate
  extract_lets t
  have ht : Looks s t := looks_modify (looked_extLatch _)
  have hr : Looks t (if (t.chan c).autoEnables && (t.chan c).ctsIn && (t.chan c).waiting then t.txLoadShift c else t) := by
    split
    · exact looks_txLoadShift c t
    · exact .refl t
  have hall := (ht.trans hr).trans (looks_update _)
  refine ⟨hall, (hall.2 c).w, (hall.2 c).sel, fun hwait => ?_⟩
  obtain ⟨hbefore, hlatch, -⟩ := (hall.2 c).waits hwait
  refine ⟨hbefore, hlatch, fun hauto => ?_⟩
  rw [waiting_update] at hwait
  have hauto' : (t.chan c).autoEnables = true := by
    unfold autoEnables
    rw [(ht.2 c).w]
    exact hauto
  have hstay : ((t.chan c).autoEnables && (t.chan c).ctsIn && (t.chan c).waiting) = false := by
    rw [Bool.eq_false_iff]
    intro hgo
    rw [if_pos hgo, txLoadShift_waiting] at hwait
    · exact Bool.noConfusion hwait
    · simp only [Bool.and_eq_true] at hgo
      rw [hgo.1.2, Bool.not_true, Bool.and_false]
  rw [hstay] at hwait ⊢
  rw [if_neg Bool.false_ne_true] at hwait ⊢
  rw [hauto', hwait, Bool.true_and, Bool.and_true] at hstay
  cases c <;> exact hstay

theorem Settled.after {ch ch' ch'' : Chan} (hw : ch'.w = ch.w) (hsel : ch'.regSelect = ch.regSelect)
    (hwait : ch'.waiting = ch.waiting) (hlatch : ch'.txIpLatch = ch.txIpLatch) (h : Settled ch' ch'') : Settled ch ch'' := by
  refine ⟨h.w.trans hw, h.sel.trans hsel, fun hlast => ?_⟩
  obtain ⟨hwait', hlatch', hcts⟩ := h.waits hlast
  refine ⟨hwait ▸ hwait', hlatch'.trans hlatch, fun hauto => hcts ?_⟩
  unfold autoEnables at hauto ⊢
  rwa [hw]

theorem looks_line (hw : (f (s.chan c)).w = (s.chan c).w) (hsel : (f (s.chan c)).regSelect = (s.chan c).regSelect)
    (hwait : (f (s.chan c)).waiting = (s.chan c).waiting) (hlatch : (f (s.chan c)).txIpLatch = (s.chan c).txIpLatch) :
    Looks s ((s.modify c f).extUpdate c) := by
  obtain ⟨hlooks, hsettled⟩ := settled_extUpdate c (s.modify c f)
  refine ⟨hlooks.1.trans (modify_timed c f s), fun d => ?_⟩
  by_cases hd : d = c
  · subst hd
    rw [chan_modify_self] at hsettled
    exact (Settled.after hw hsel hwait hlatch hsettled).looked
  · have hother := hlooks.2 d
    rwa [chan_modify_ne hd] at hother

theorem looks_lineChange (c : Channel) (msg : SerialMessage) (s : Z85C30) : Looks s (s.lineChange c msg) := by
  unfold lineChange
  split
  · exact looks_line rfl rfl rfl rfl
  · exact looks_line rfl rfl rfl rfl
  · have hsame := rxPush_same 0 (s.chan c)
    refine looks_line ?_ ?_ ?_ ?_
    · split
      · exact hsame.1
      · rfl
    · split
      · exact hsame.2.1
      · rfl
    · split
      · exact rxPush_waiting 0 (s.chan c)
      · rfl
    · split
      · exact hsame.2.2.2.1
      · rfl
  · exact .refl s

theorem looks_rxLoop (c : Channel) (q : List SerialMessage) : ∀ s : Z85C30, Looks s (rxLoop c q s) := by
  induction q with
  | nil => intro s; exact looks_modify (.same rfl rfl rfl rfl rfl)
  | cons msg q ih =>
    intro s
    rw [rxLoop]
    split
    · extract_lets t u v
      have ht : Looks s t := looks_modify (.same rfl rfl rfl rfl rfl)
      have hu : Looks t u := looks_modify (.same rfl rfl rfl rfl rfl)
      have hv : Looks u v := (looks_modify (looked_landed _)).trans (looks_update _)
      split
      · exact ht
      split
      · exact (ht.trans hu).trans (looks_modify (looked_startRx _ _))
      split
      · exact (ht.trans hu).trans hv
      · exact ((ht.trans hu).trans hv).trans (ih v)
    · exact (looks_lineChange c msg s).trans (ih _)

theorem looks_rxTryStart (c : Channel) (s : Z85C30) : Looks s (s.rxTryStart c) := by
  unfold rxTryStart
  split
  · exact .refl s
  · exact looks_rxLoop c _ s

theorem looks_updateQueues (s : Z85C30) : Looks s s.updateQueues :=
  (looks_rxTryStart .a s).trans (looks_rxTryStart .b _)

/-- Both channels of a record. -/
def savedOf : Reader (Saved × Saved) := do
  let a ← Saved.read
  let b ← Saved.read
  let _ ← Reader.block 2
  pure (a, b)

theorem Saved.read_count {file rest : List Byte} {sv : Saved} (h : Saved.read file = some (sv, rest)) : sv.count ≤ 3 := by
  unfold Saved.read at h
  simp only [block_bind] at h
  repeat' split at h
  any_goals cases h
  next hcount => exact Nat.le_of_not_lt hcount

theorem restore_cases (s : Z85C30) (file : List Byte) : (s.restore file).map Prod.fst = none ∨
    ∃ a b rest ip ius, savedOf file = some ((a, b), rest) ∧ a.count ≤ 3 ∧ b.count ≤ 3 ∧
      (s.restore file).map Prod.fst = some ({ s with
        a := resumeChan s.timed s.now a s.a, b := resumeChan s.timed s.now b s.b
        ipBits := ip, iusBits := ius }.updateInterrupts) := by
  show Option.map _ ((Saved.read file).bind _) = none ∨ ∃ a b rest ip ius, (Saved.read file).bind _ = _ ∧ _ ∧ _ ∧
    Option.map _ ((Saved.read file).bind _) = _
  cases ha : Saved.read file with
  | none => exact .inl rfl
  | some p =>
    show Option.map _ ((Saved.read p.2).bind _) = none ∨ ∃ a b rest ip ius, (Saved.read p.2).bind _ = _ ∧ _ ∧ _ ∧
      Option.map _ ((Saved.read p.2).bind _) = _
    cases hb : Saved.read p.2 with
    | none => exact .inl rfl
    | some q =>
      show Option.map _ ((Reader.block 2 q.2).bind _) = none ∨ ∃ a b rest ip ius, (Reader.block 2 q.2).bind _ = _ ∧ _ ∧ _ ∧
        Option.map _ ((Reader.block 2 q.2).bind _) = _
      cases Reader.block 2 q.2 with
      | none => exact .inl rfl
      | some r => exact .inr ⟨p.1, q.1, r.2, r.1.getD 0 0, r.1.getD 1 0, rfl, Saved.read_count ha, Saved.read_count hb, rfl⟩

end

end Z85C30

end GSSquared.Serial
