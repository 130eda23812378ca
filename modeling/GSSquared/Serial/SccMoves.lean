/-
Characters on their way through the SCC.
-/
import GSSquared.Lib.Agenda
import GSSquared.Lib.Trail
import GSSquared.Serial.SccLook

set_option linter.all false

namespace GSSquared.Serial

open Bits Wire Machine

namespace Chan

def pendingOf (t : SccTimer) (ch : Chan) : Nat := ch.pending.countP (fun e => e.timer == t)

structure Counts (ch : Chan) : Prop where
  avail : ch.rxCharAvailable = decide (ch.rxFifo ≠ [])
  room : ch.rxFifo.length ≤ 3
  tx : ch.pendingOf .tx = (ch.txInProgress && !ch.txStalled).toNat
  rx : ch.pendingOf .rx = (ch.rxInProgress && !ch.rxStalled).toNat
  zc : ch.pendingOf .zc = ch.zcScheduled.toNat
  poll : ch.pendingOf .rxPoll = ch.rxPollScheduled.toNat

structure Clocked (ch : Chan) : Prop where
  tx : ch.txInProgress = true → ch.txStalled = true → ch.clockSource true = none
  rx : ch.rxInProgress = true → ch.rxStalled = true → ch.clockSource false = none

def Moves (ch : Chan) : Prop :=
  ch.waiting = true → ch.txEnable = true → ch.autoEnables = true ∧ ch.ctsIn = false

structure Sound (ch : Chan) : Prop where
  counts : ch.Counts
  clocked : ch.Clocked
  moves : ch.Moves

section

variable {ch : Chan}

theorem pendingOf_schedule (t u : SccTimer) (due : Nat) (ch : Chan) :
    (ch.schedule t due).pendingOf u = ch.pendingOf u + (t == u).toNat :=
  Agenda.due_schedule SccEvent.timer u ch.pending ⟨t, due⟩

theorem charTicks_none (isTx : Bool) (h : ch.charTicks isTx = none) : ch.clockSource isTx = none :=
  Option.map_eq_none_iff.1 h

theorem startTx_counts (ch : Chan) (now : Nat) (h : Counts { ch with txInProgress := false }) (hbusy : ch.txInProgress = true) :
    (ch.startTx now).Counts ∧ ((ch.startTx now).txStalled = true → (ch.startTx now).clockSource true = none) := by
  have hnone : ch.pendingOf .tx = 0 := h.tx
  unfold startTx
  split
  · next hticks =>
    refine ⟨⟨h.avail, h.room, ?_, h.rx, h.zc, h.poll⟩, fun _ => charTicks_none true hticks⟩
    show ch.pendingOf .tx = (ch.txInProgress && !true).toNat
    rw [hnone, hbusy]
    rfl
  · next ticks hticks =>
    refine ⟨⟨h.avail, h.room, ?_, ?_, ?_, ?_⟩, fun hstall => Bool.noConfusion hstall⟩
    · show pendingOf .tx _ = (ch.txInProgress && !false).toNat
      rw [pendingOf_schedule, hbusy]
      exact congrArg (· + 1) hnone
    all_goals
      rw [pendingOf_schedule]
      first | exact h.rx | exact h.zc | exact h.poll

theorem startTx_rest (now : Nat) (ch : Chan) : ∃ stalled due pending,
    ch.startTx now = { ch with txStalled := stalled, txDue := due, pending := pending } := by
  unfold startTx
  split
  · exact ⟨true, ch.txDue, ch.pending, rfl⟩
  · exact ⟨false, _, _, rfl⟩

theorem startRx_counts (ch : Chan) (now : Nat) (h : Counts { ch with rxInProgress := false }) (hbusy : ch.rxInProgress = true) :
    (ch.startRx now).Counts ∧ ((ch.startRx now).rxStalled = true → (ch.startRx now).clockSource false = none) := by
  have hnone : ch.pendingOf .rx = 0 := h.rx
  unfold startRx
  split
  · next hticks =>
    refine ⟨⟨h.avail, h.room, h.tx, ?_, h.zc, h.poll⟩, fun _ => charTicks_none false hticks⟩
    show ch.pendingOf .rx = (ch.rxInProgress && !true).toNat
    rw [hnone, hbusy]
    rfl
  · next ticks hticks =>
    refine ⟨⟨h.avail, h.room, ?_, ?_, ?_, ?_⟩, fun hstall => Bool.noConfusion hstall⟩
    · rw [pendingOf_schedule]
      exact h.tx
    · show pendingOf .rx _ = (ch.rxInProgress && !false).toNat
      rw [pendingOf_schedule, hbusy]
      exact congrArg (· + 1) hnone
    all_goals
      rw [pendingOf_schedule]
      first | exact h.zc | exact h.poll

theorem startRx_rest (now : Nat) (ch : Chan) : ∃ stalled due pending,
    ch.startRx now = { ch with rxStalled := stalled, rxDue := due, pending := pending } := by
  unfold startRx
  split
  · exact ⟨true, ch.rxDue, ch.pending, rfl⟩
  · exact ⟨false, _, _, rfl⟩

theorem startRx_sound (now : Nat) (h : ch.Sound) (hidle : ch.rxInProgress = false) (data : Byte) :
    ({ ch with charRx := data, rxInProgress := true }.startRx now).Sound := by
  have hc := h.counts
  have hnone : ch.pendingOf .rx = 0 := by
    rw [hc.rx, hidle]
    rfl
  obtain ⟨hcounts, hclock⟩ := startRx_counts { ch with charRx := data, rxInProgress := true } now
    ⟨hc.avail, hc.room, hc.tx, hnone, hc.zc, hc.poll⟩ rfl
  obtain ⟨stalled, due, pending, hrest⟩ := startRx_rest now { ch with charRx := data, rxInProgress := true }
  rw [hrest] at hcounts hclock ⊢
  exact ⟨hcounts, ⟨h.clocked.tx, fun _ => hclock⟩, h.moves⟩

theorem zcArm_sound (timed : Bool) (now : Nat) (h : ch.Sound) : (ch.zcArm timed now).Sound := by
  unfold zcArm
  split
  · exact h
  split
  · exact h
  · next hfree _ =>
    have hidle : ch.zcScheduled = false := by
      rw [Bool.or_eq_true, not_or, Bool.not_eq_true] at hfree
      simpa using hfree.2
    refine ⟨⟨h.counts.avail, h.counts.room, ?_, ?_, ?_, ?_⟩, ⟨h.clocked.tx, h.clocked.rx⟩, h.moves⟩
    · rw [pendingOf_schedule]
      exact h.counts.tx
    · rw [pendingOf_schedule]
      exact h.counts.rx
    · show pendingOf .zc _ = 1
      rw [pendingOf_schedule]
      refine congrArg (· + 1) (h.counts.zc.trans ?_)
      rw [hidle]
      rfl
    · rw [pendingOf_schedule]
      exact h.counts.poll

theorem rxPollArm_sound (timed : Bool) (now : Nat) (h : ch.Sound) : (ch.rxPollArm timed now).Sound := by
  unfold rxPollArm
  split
  · exact h
  · next hfree =>
    have hidle : ch.rxPollScheduled = false := by
      rw [Bool.or_eq_true, not_or, Bool.not_eq_true, Bool.not_eq_true] at hfree
      exact hfree.2
    refine ⟨⟨h.counts.avail, h.counts.room, ?_, ?_, ?_, ?_⟩, ⟨h.clocked.tx, h.clocked.rx⟩, h.moves⟩
    · rw [pendingOf_schedule]
      exact h.counts.tx
    · rw [pendingOf_schedule]
      exact h.counts.rx
    · rw [pendingOf_schedule]
      exact h.counts.zc
    · show pendingOf .rxPoll _ = 1
      rw [pendingOf_schedule]
      refine congrArg (· + 1) (h.counts.poll.trans ?_)
      rw [hidle]
      rfl

variable (data : Byte)

theorem rxPush_avail (ch : Chan) : (ch.rxPush data).rxCharAvailable = true := by
  unfold rxPush
  split <;> exact getLsbD_setBit true ch.rr0 (by decide) (by decide)

theorem rxPush_fifo (h : ch.rxFifo.length ≤ 3) : (ch.rxPush data).rxFifo ≠ [] ∧ (ch.rxPush data).rxFifo.length ≤ 3 := by
  unfold rxPush
  split
  · next hroom =>
    refine ⟨List.append_ne_nil_of_right_ne_nil _ (List.cons_ne_nil data []), ?_⟩
    show (ch.rxFifo ++ [data]).length ≤ 3
    rw [List.length_append, List.length_singleton]
    omega
  · next hfull =>
    have hlen : (ch.rxFifo.set 2 data).length = ch.rxFifo.length := List.length_set
    refine ⟨fun hnil => ?_, hlen.trans_le h⟩
    change ch.rxFifo.set 2 data = [] at hnil
    rw [hnil] at hlen
    have hzero : ch.rxFifo.length = 0 := hlen.symm
    omega

theorem rxPush_rest (ch : Chan) : ∃ rr0 rr1 fifo,
    ch.rxPush data = { ch with rr0 := rr0, rr1 := rr1, rxFifo := fifo } := by
  unfold rxPush
  split
  · exact ⟨_, ch.rr1, _, rfl⟩
  · exact ⟨_, _, _, rfl⟩

theorem rxPush_counts (h : ch.Counts) (hclock : ch.Clocked) :
    (ch.rxPush data).Counts ∧ (ch.rxPush data).Clocked := by
  have havail := rxPush_avail data ch
  have hfifo := rxPush_fifo data h.room
  obtain ⟨rr0, rr1, fifo, hrest⟩ := rxPush_rest data ch
  rw [hrest] at havail hfifo ⊢
  refine ⟨⟨?_, hfifo.2, h.tx, h.rx, h.zc, h.poll⟩, ⟨hclock.tx, hclock.rx⟩⟩
  rw [havail]
  exact (decide_eq_true hfifo.1).symm

theorem rxPush_moves (h : ch.Moves) : (ch.rxPush data).Moves := by
  have hwait := rxPush_waiting data ch
  obtain ⟨rr0, rr1, fifo, hrest⟩ := rxPush_rest data ch
  rw [hrest] at hwait ⊢
  exact fun hwaits henable => h (hwait ▸ hwaits) henable

theorem rxPush_sound (h : ch.Sound) : (ch.rxPush data).Sound :=
  have hcounts := rxPush_counts data h.counts h.clocked
  ⟨hcounts.1, hcounts.2, rxPush_moves data h.moves⟩

theorem load_sound (now : Nat) (h : ch.Counts) (hclock : ch.Clocked) (hidle : ch.txInProgress = false) :
    (ch.load.startTx now).Sound := by
  have havail : ch.load.rxCharAvailable = ch.rxCharAvailable := getLsbD_setBit true ch.rr0 (by decide) (by decide)
  have hnone : ch.pendingOf .tx = 0 := by
    rw [h.tx, hidle]
    rfl
  obtain ⟨hcounts, hstall⟩ := startTx_counts ch.load now
    ⟨havail.trans h.avail, h.room, hnone, h.rx, h.zc, h.poll⟩ rfl
  obtain ⟨stalled, due, pending, hrest⟩ := startTx_rest now ch.load
  rw [hrest] at hcounts hstall ⊢
  refine ⟨hcounts, ⟨fun _ => hstall, hclock.rx⟩, fun hwait => ?_⟩
  exact absurd ((waiting_of_busy rfl).symm.trans hwait) Bool.noConfusion

theorem txThrough_counts (h : Counts { ch with txInProgress := false }) (hclock : ch.Clocked) :
    ch.txThrough.Counts ∧ ch.txThrough.Clocked ∧ ch.txThrough.txInProgress = false := by
  unfold txThrough
  extract_lets t
  change t.Counts at h
  have ht : t.Clocked := ⟨fun hbusy => Bool.noConfusion hbusy, hclock.rx⟩
  split
  · split
    · have hcounts : Counts { t with charRx := t.txShift } := ⟨h.avail, h.room, h.tx, h.rx, h.zc, h.poll⟩
      obtain ⟨hc, hk⟩ := rxPush_counts t.txShift hcounts ⟨ht.tx, ht.rx⟩
      exact ⟨hc, hk, (rxPush_same t.txShift { t with charRx := t.txShift }).2.2.1⟩
    · exact ⟨h, ht, rfl⟩
  split
  · exact ⟨⟨h.avail, h.room, h.tx, h.rx, h.zc, h.poll⟩, ⟨ht.tx, ht.rx⟩, rfl⟩
  · exact ⟨h, ht, rfl⟩

end

end Chan

namespace Z85C30

open Chan

/-- The chip is timed, the channel is `P` and the other one sound. -/
structure At (c : Channel) (P : Chan → Prop) (s : Z85C30) : Prop where
  timed : s.timed = true
  here : P (s.chan c)
  others : ∀ d, d ≠ c → (s.chan d).Sound

structure Good (s : Z85C30) : Prop where
  timed : s.timed = true
  sound : ∀ c, (s.chan c).Sound

section

variable {s : Z85C30} {c : Channel} {P Q : Chan → Prop} {f : Chan → Chan}

theorem Good.at (h : s.Good) (c : Channel) : At c Sound s := ⟨h.timed, h.sound c, fun d _ => h.sound d⟩

theorem At.good (h : At c Sound s) : s.Good := by
  refine ⟨h.timed, fun d => ?_⟩
  by_cases hd : d = c
  · exact hd ▸ h.here
  · exact h.others d hd

theorem At.modify (h : At c P s) (hf : P (s.chan c) → Q (f (s.chan c))) : At c Q (s.modify c f) := by
  refine ⟨(modify_timed c f s).trans h.timed, ?_, fun d hd => ?_⟩
  · rw [chan_modify_self]
    exact hf h.here
  · rw [chan_modify_ne hd]
    exact h.others d hd

theorem At.imp (h : At c P s) (hpq : P (s.chan c) → Q (s.chan c)) : At c Q s := ⟨h.timed, hpq h.here, h.others⟩

theorem Good.modify (h : s.Good) (hf : (s.chan c).Sound → (f (s.chan c)).Sound) : (s.modify c f).Good :=
  ((h.at c).modify hf).good

theorem At.update (h : At c Sound s) : s.updateInterrupts.Good := by
  refine ⟨h.timed, fun d => ?_⟩
  have hd := h.good.sound d
  cases d <;> exact ⟨⟨hd.counts.avail, hd.counts.room, hd.counts.tx, hd.counts.rx, hd.counts.zc, hd.counts.poll⟩,
    ⟨hd.clocked.tx, hd.clocked.rx⟩, hd.moves⟩

structure Ready (ch : Chan) : Prop where
  counts : ch.Counts
  clocked : ch.Clocked
  idle : ch.txInProgress = false

theorem At.load (h : At c Ready s) : At c Sound (s.txLoadShift c) := by
  unfold txLoadShift
  split
  · next hheld =>
    rw [Bool.and_eq_true, Bool.not_eq_true'] at hheld
    exact h.imp (fun hr => ⟨hr.counts, hr.clocked, fun _ _ => hheld⟩)
  · rw [if_pos h.timed]
    exact h.modify (fun hr => load_sound s.now hr.counts hr.clocked hr.idle)

theorem At.txComplete (h : At c (fun ch => Counts { ch with txInProgress := false } ∧ ch.Clocked) s) :
    (s.txComplete c).Good := by
  unfold Z85C30.txComplete
  extract_lets t
  have ht : At c Ready t := h.modify (fun hc => by
    obtain ⟨hcounts, hclock, hidle⟩ := txThrough_counts hc.1 hc.2
    exact ⟨hcounts, hclock, hidle⟩)
  split
  · exact ht.load.update
  · next hempty =>
    refine At.update (ht.imp (fun hr => ⟨hr.counts, hr.clocked, fun hwait => ?_⟩))
    rw [Bool.not_eq_true', Bool.not_eq_false] at hempty
    exact absurd ((waiting_of_empty hempty).symm.trans hwait) Bool.noConfusion

structure Loose (ch : Chan) : Prop where
  counts : ch.Counts
  clocked : ch.Clocked
  auto : ch.waiting = true → ch.txEnable = true → ch.autoEnables = true

theorem extLatch_rest (ch : Chan) : ∃ latched bits last ip, ch.extLatch =
    { ch with extLatched := latched, extLatchedBits := bits, extLastBits := last, extIpLatch := ip } := by
  unfold extLatch
  split
  · exact ⟨ch.extLatched, ch.extLatchedBits, ch.extLastBits, ch.extIpLatch, rfl⟩
  split
  · exact ⟨_, _, _, _, rfl⟩
  · exact ⟨ch.extLatched, ch.extLatchedBits, _, ch.extIpLatch, rfl⟩

theorem At.extUpdate (h : At c Loose s) : (s.extUpdate c).Good := by
  unfold Z85C30.extUpdate
  extract_lets t
  have ht : At c Loose t := h.modify (fun hl => by
    obtain ⟨latched, bits, last, ip, hrest⟩ := extLatch_rest (s.chan c)
    rw [hrest]
    exact ⟨⟨hl.counts.avail, hl.counts.room, hl.counts.tx, hl.counts.rx, hl.counts.zc, hl.counts.poll⟩,
      ⟨hl.clocked.tx, hl.clocked.rx⟩, hl.auto⟩)
  split
  · next hgo =>
    refine (At.load (ht.imp (fun hl => ⟨hl.counts, hl.clocked, ?_⟩))).update
    rw [waiting, Bool.and_eq_true, Bool.and_eq_true, Bool.and_eq_true, Bool.not_eq_true'] at hgo
    exact hgo.2.1
  · next hstay =>
    refine At.update (ht.imp (fun hl => ⟨hl.counts, hl.clocked, fun hwait henable => ?_⟩))
    have hauto := hl.auto hwait henable
    refine ⟨hauto, Bool.eq_false_iff.2 (fun hcts => hstay ?_)⟩
    rw [hauto, hcts, hwait]
    rfl

theorem update_rxInProgress (c : Channel) (s : Z85C30) : (s.updateInterrupts.chan c).rxInProgress = (s.chan c).rxInProgress := by
  cases c <;> rfl

theorem load_rxInProgress (h : s.timed = true) : ((s.txLoadShift c).chan c).rxInProgress = (s.chan c).rxInProgress := by
  unfold txLoadShift
  split
  · rfl
  · rw [chan_modify_self]
    unfold startTx
    split <;> rfl

theorem extUpdate_rxInProgress (h : s.timed = true) : ((s.extUpdate c).chan c).rxInProgress = (s.chan c).rxInProgress := by
  unfold Z85C30.extUpdate
  extract_lets t
  have ht : (t.chan c).rxInProgress = (s.chan c).rxInProgress := by
    obtain ⟨latched, bits, last, ip, hrest⟩ := extLatch_rest (s.chan c)
    show ((s.modify c extLatch).chan c).rxInProgress = _
    rw [chan_modify_self, hrest]
  rw [update_rxInProgress, ← ht]
  split
  · exact load_rxInProgress ((modify_timed c _ s).trans h)
  · rfl

theorem Good.line (h : s.Good) (hf : Loose (f (s.chan c))) : ((s.modify c f).extUpdate c).Good :=
  ((h.at c).modify (fun _ => hf)).extUpdate

theorem Sound.loose {ch : Chan} (h : ch.Sound) : Loose ch :=
  ⟨h.counts, h.clocked, fun hwait henable => (h.moves hwait henable).1⟩

theorem good_lineChange (c : Channel) (msg : SerialMessage) (h : s.Good) : (s.lineChange c msg).Good ∧
    ((s.lineChange c msg).chan c).rxInProgress = (s.chan c).rxInProgress := by
  have hs := Sound.loose (h.sound c)
  unfold lineChange
  split
  · refine ⟨h.line ⟨⟨hs.counts.avail, hs.counts.room, hs.counts.tx, hs.counts.rx, hs.counts.zc, hs.counts.poll⟩,
      ⟨hs.clocked.tx, hs.clocked.rx⟩, hs.auto⟩, ?_⟩
    rw [extUpdate_rxInProgress ((modify_timed c _ s).trans h.timed), chan_modify_self]
  · refine ⟨h.line ⟨⟨hs.counts.avail, hs.counts.room, hs.counts.tx, hs.counts.rx, hs.counts.zc, hs.counts.poll⟩,
      ⟨hs.clocked.tx, hs.clocked.rx⟩, hs.auto⟩, ?_⟩
    rw [extUpdate_rxInProgress ((modify_timed c _ s).trans h.timed), chan_modify_self]
  · have hpush : ((if (s.chan c).breakIn && (s.chan c).rxEnable then (s.chan c).rxPush 0 else s.chan c)).Sound ∧
        (if (s.chan c).breakIn && (s.chan c).rxEnable then (s.chan c).rxPush 0 else s.chan c).rxInProgress =
          (s.chan c).rxInProgress := by
      split
      · obtain ⟨rr0, rr1, fifo, hrest⟩ := rxPush_rest 0 (s.chan c)
        exact ⟨rxPush_sound 0 (h.sound c), by rw [hrest]⟩
      · exact ⟨h.sound c, rfl⟩
    have hp := Sound.loose hpush.1
    refine ⟨h.line ⟨⟨hp.counts.avail, hp.counts.room, hp.counts.tx, hp.counts.rx, hp.counts.zc, hp.counts.poll⟩,
      ⟨hp.clocked.tx, hp.clocked.rx⟩, hp.auto⟩, ?_⟩
    rw [extUpdate_rxInProgress ((modify_timed c _ s).trans h.timed), chan_modify_self]
    exact hpush.2
  · exact ⟨h, rfl⟩

theorem good_rxLoop (c : Channel) (q : List SerialMessage) :
    ∀ s : Z85C30, s.Good → (s.chan c).rxInProgress = false → (rxLoop c q s).Good := by
  induction q with
  | nil =>
    intro s h _
    exact h.modify (fun hc => ⟨⟨hc.counts.avail, hc.counts.room, hc.counts.tx, hc.counts.rx, hc.counts.zc, hc.counts.poll⟩,
      ⟨hc.clocked.tx, hc.clocked.rx⟩, hc.moves⟩)
  | cons msg q ih =>
    intro s h hidle
    rw [rxLoop]
    split
    · extract_lets t u v
      have ht : t.Good := h.modify (fun hc =>
        ⟨⟨hc.counts.avail, hc.counts.room, hc.counts.tx, hc.counts.rx, hc.counts.zc, hc.counts.poll⟩,
          ⟨hc.clocked.tx, hc.clocked.rx⟩, hc.moves⟩)
      have htidle : (t.chan c).rxInProgress = false := by
        show ((s.modify c _).chan c).rxInProgress = false
        rw [chan_modify_self]
        exact hidle
      have hu : u.timed = true := (modify_timed c _ t).trans ht.timed
      split
      · exact ht
      · show ((t.modify c _).modify c _).Good
        rw [modify_modify]
        have hnow : u.now = t.now := modify_now c _ t
        rw [hnow]
        exact ht.modify (fun hc => startRx_sound t.now hc htidle _)
    · obtain ⟨hgood, hsame⟩ := good_lineChange c msg h
      exact ih _ hgood (hsame.trans hidle)

theorem good_rxTryStart (c : Channel) (h : s.Good) : (s.rxTryStart c).Good := by
  unfold rxTryStart
  split
  · exact h
  · next hfree =>
    refine good_rxLoop c _ s h ?_
    unfold rxBlocked at hfree
    simp only [Bool.or_eq_true, not_or, Bool.not_eq_true] at hfree
    exact hfree.1.1.2

theorem At.rxComplete (h : At c (fun ch => Counts { ch with rxInProgress := false } ∧ ch.Clocked ∧ ch.Moves) s) :
    (s.rxComplete c).Good := by
  refine good_rxTryStart c (At.update (h.modify (fun hc => ?_)))
  have hsound : Sound { s.chan c with rxInProgress := false } :=
    ⟨hc.1, ⟨hc.2.1.tx, fun hbusy => Bool.noConfusion hbusy⟩, hc.2.2⟩
  exact rxPush_sound _ hsound

structure Routed (ch : Chan) : Prop where
  counts : ch.Counts
  moves : ch.Moves

theorem tell_rest (ch : Chan) : ∃ baud q l, ch.setBaudRate.pushLineParams =
    { ch with baudRate := baud, qHost := q, lineParamsLast := l } := by
  obtain ⟨q, l, h⟩ := pushLineParams_eq ch.setBaudRate
  exact ⟨_, q, l, h⟩

theorem At.updateTimingSources (h : At c Routed s) : (s.updateTimingSources c).Good := by
  unfold Z85C30.updateTimingSources
  extract_lets t u v
  have ht : At c Routed t := h.modify (fun hr => by
    obtain ⟨baud, q, l, hrest⟩ := tell_rest (s.chan c)
    rw [hrest]
    have hc := hr.counts
    exact ⟨⟨hc.avail, hc.room, hc.tx, hc.rx, hc.zc, hc.poll⟩, hr.moves⟩)
  have hu : At c (fun ch => Routed ch ∧ (ch.txInProgress = true → ch.txStalled = true → ch.clockSource true = none)) u := by
    unfold u
    split
    · next hgo =>
      rw [Bool.and_eq_true] at hgo
      unfold scheduleTxComplete
      rw [if_pos ht.timed]
      refine ht.modify (fun hr => ?_)
      have hc := hr.counts
      have hnone : (t.chan c).pendingOf .tx = 0 := by
        rw [hc.tx, hgo.1, hgo.2]
        rfl
      obtain ⟨hcounts, hstall⟩ := startTx_counts (t.chan c) t.now ⟨hc.avail, hc.room, hnone, hc.rx, hc.zc, hc.poll⟩ hgo.1
      obtain ⟨stalled, due, pending, hrest⟩ := startTx_rest t.now (t.chan c)
      rw [hrest] at hcounts hstall ⊢
      exact ⟨⟨hcounts, hr.moves⟩, fun _ => hstall⟩
    · next hstay =>
      exact ht.imp (fun hr => ⟨hr, fun hbusy hstall => absurd (Bool.and_eq_true_iff.2 ⟨hbusy, hstall⟩) hstay⟩)
  have hv : At c Sound v := by
    unfold v
    split
    · next hgo =>
      rw [Bool.and_eq_true] at hgo
      unfold scheduleRxComplete
      rw [if_pos hu.timed]
      refine hu.modify (fun hr => ?_)
      have hc := hr.1.counts
      have hnone : (u.chan c).pendingOf .rx = 0 := by
        rw [hc.rx, hgo.1, hgo.2]
        rfl
      obtain ⟨hcounts, hstall⟩ := startRx_counts (u.chan c) u.now ⟨hc.avail, hc.room, hc.tx, hnone, hc.zc, hc.poll⟩ hgo.1
      obtain ⟨stalled, due, pending, hrest⟩ := startRx_rest u.now (u.chan c)
      rw [hrest] at hcounts hstall ⊢
      exact ⟨hcounts, ⟨hr.2, fun _ => hstall⟩, hr.1.moves⟩
    · next hstay =>
      exact hu.imp (fun hr => ⟨hr.1.counts,
        ⟨hr.2, fun hbusy hstall => absurd (Bool.and_eq_true_iff.2 ⟨hbusy, hstall⟩) hstay⟩, hr.1.moves⟩)
  exact hv.good.modify (fun hc => zcArm_sound _ _ hc)

theorem Good.rxPollArm (h : s.Good) (timed : Bool) (now : Nat) : (s.modify c (Chan.rxPollArm · timed now)).Good :=
  h.modify (fun hc => rxPollArm_sound timed now hc)

theorem At.zcTick (h : At c (fun ch => Sound { ch with zcScheduled := false }) s) : (s.zcTick c).Good := by
  unfold Z85C30.zcTick
  extract_lets t
  have ht : t.Good := by
    refine At.extUpdate (h.modify (fun hz => ?_))
    have hc := hz.counts
    exact ⟨⟨hc.avail, hc.room, hc.tx, hc.rx, hc.zc, hc.poll⟩, ⟨hz.clocked.tx, hz.clocked.rx⟩, (Sound.loose hz).auto⟩
  refine ht.modify (fun hs => zcArm_sound _ _ ?_)
  have hc := hs.counts
  exact ⟨⟨hc.avail, hc.room, hc.tx, hc.rx, hc.zc, hc.poll⟩, ⟨hs.clocked.tx, hs.clocked.rx⟩, hs.moves⟩

end

end Z85C30

end GSSquared.Serial
