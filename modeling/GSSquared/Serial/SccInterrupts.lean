/-
The SCC's interrupt line. RR3 and the line are recomputed by explicit calls.
-/
import GSSquared.Lib.Trail
import GSSquared.Serial.SccLook

set_option linter.all false

namespace GSSquared.Serial

open Bits Wire Machine

namespace Chan

structure Quiet (ch ch' : Chan) : Prop where
  sources : ch'.sources = ch.sources
  rr3 : ch'.rr3 = ch.rr3
  mie : (ch'.w 9).getLsbD 3 = (ch.w 9).getLsbD 3

section

variable {ch ch' ch'' : Chan}

theorem Quiet.refl (ch : Chan) : Quiet ch ch := ⟨rfl, rfl, rfl⟩

theorem Quiet.trans (h : Quiet ch ch') (h' : Quiet ch' ch'') : Quiet ch ch'' :=
  ⟨h'.sources.trans h.sources, h'.rr3.trans h.rr3, h'.mie.trans h.mie⟩

theorem quiet_setW (ch : Chan) {i : Fin 16} (v : Byte) (h1 : i ≠ 1) (h9 : i ≠ 9) : Quiet ch (ch.setW i v) := by
  have hw (j : Fin 16) (hj : i ≠ j) : (ch.setW i v).w j = ch.w j := if_neg (Ne.symm hj)
  refine ⟨?_, rfl, by rw [hw 9 h9]⟩
  unfold Chan.sources rxIntMode rxSpecial paritySpcond txIntEnable extIntEnable rxCharAvailable
  rw [hw 1 h1]
  rfl

theorem quiet_pushLineParams (ch : Chan) : Quiet ch ch.pushLineParams := by
  obtain ⟨q, l, h⟩ := pushLineParams_eq ch
  rw [h]
  exact ⟨rfl, rfl, rfl⟩

theorem quiet_linesOutUpdate (force : Bool) (ch : Chan) : Quiet ch (ch.linesOutUpdate force) := by
  obtain ⟨q, l, b, h⟩ := linesOutUpdate_eq force ch
  rw [h]
  exact ⟨rfl, rfl, rfl⟩

theorem quiet_startTx (now : Nat) (ch : Chan) : Quiet ch (ch.startTx now) := by
  unfold startTx
  split <;> exact ⟨rfl, rfl, rfl⟩

theorem quiet_startRx (now : Nat) (ch : Chan) : Quiet ch (ch.startRx now) := by
  unfold startRx
  split <;> exact ⟨rfl, rfl, rfl⟩

theorem quiet_begin (q : List SerialMessage) (data : Byte) (now : Nat) (ch : Chan) :
    Quiet ch ({ ch with qDev := q, charRx := data, rxInProgress := true }.startRx now) := by
  have hset : Quiet ch { ch with qDev := q, charRx := data, rxInProgress := true } := ⟨rfl, rfl, rfl⟩
  exact hset.trans (quiet_startRx _ _)

theorem quiet_zcArm (timed : Bool) (now : Nat) (ch : Chan) : Quiet ch (ch.zcArm timed now) := by
  unfold zcArm
  split
  · exact .refl ch
  split
  · exact .refl ch
  · exact ⟨rfl, rfl, rfl⟩

theorem quiet_rxPollArm (timed : Bool) (now : Nat) (ch : Chan) : Quiet ch (ch.rxPollArm timed now) := by
  unfold rxPollArm
  split
  · exact .refl ch
  · exact ⟨rfl, rfl, rfl⟩

end

end Chan

namespace Z85C30

open Chan

def asserts (s : Z85C30) : Bool := s.mie && decide (highestBit s.pendingSources > highestBit s.iusBits)

structure Current (s : Z85C30) : Prop where
  rr3 : s.a.rr3 = s.pendingSources
  line : s.irqLine = s.asserts

section

variable {s : Z85C30} {c : Channel} {f : Chan → Chan}

theorem current_update (s : Z85C30) : s.updateInterrupts.Current := ⟨rfl, rfl⟩

theorem pendingSources_modify (hf : (f (s.chan c)).sources = (s.chan c).sources) :
    (s.modify c f).pendingSources = s.pendingSources := by
  cases c with
  | a => exact congrArg (fun x : Byte => (x <<< 3) ||| s.b.sources) hf
  | b => exact congrArg (fun x : Byte => (s.a.sources <<< 3) ||| x) hf

theorem mie_modify (hf : ((f (s.chan c)).w 9).getLsbD 3 = ((s.chan c).w 9).getLsbD 3) : (s.modify c f).mie = s.mie := by
  cases c with
  | a => exact hf
  | b => rfl

theorem Current.modify (h : s.Current) (hf : Quiet (s.chan c) (f (s.chan c))) : (s.modify c f).Current := by
  have hpending := pendingSources_modify hf.sources
  have hrr3 : (s.modify c f).a.rr3 = s.a.rr3 := by
    cases c with
    | a => exact hf.rr3
    | b => rfl
  have hline : (s.modify c f).irqLine = s.irqLine ∧ (s.modify c f).iusBits = s.iusBits := by
    cases c <;> exact ⟨rfl, rfl⟩
  refine ⟨?_, ?_⟩
  · rw [hrr3, hpending]
    exact h.rr3
  · unfold asserts
    rw [hline.1, hline.2, hpending, mie_modify hf.mie]
    exact h.line

theorem current_txLoadShift (h : s.Current)
    (hload : s.timed = true → Quiet (s.chan c) ((s.chan c).load)) : (s.txLoadShift c).Current := by
  unfold txLoadShift
  split
  · exact h
  split
  · next htimed => exact h.modify ((hload htimed).trans (quiet_startTx _ _))
  · exact current_update _

theorem current_lineChange (msg : SerialMessage) (h : s.Current) : (s.lineChange c msg).Current := by
  unfold lineChange
  split
  · exact current_update _
  · exact current_update _
  · exact current_update _
  · exact h

theorem current_rxLoop (c : Channel) (q : List SerialMessage) : ∀ s : Z85C30, s.Current → (rxLoop c q s).Current := by
  induction q with
  | nil => intro s h; exact h.modify ⟨rfl, rfl, rfl⟩
  | cons msg q ih =>
    intro s h
    rw [rxLoop]
    split
    · extract_lets t u v
      have ht : t.Current := h.modify ⟨rfl, rfl, rfl⟩
      have hu : u.Current := ht.modify ⟨rfl, rfl, rfl⟩
      split
      · exact ht
      split
      · exact hu.modify (quiet_startRx _ _)
      split
      · exact current_update _
      · exact ih v (current_update _)
    · exact ih _ (current_lineChange msg h)

theorem current_rxTryStart (h : s.Current) : (s.rxTryStart c).Current := by
  unfold rxTryStart
  split
  · exact h
  · exact current_rxLoop c _ s h

theorem current_updateQueues (h : s.Current) : s.updateQueues.Current := current_rxTryStart (current_rxTryStart h)

theorem current_rxComplete (c : Channel) (s : Z85C30) : (s.rxComplete c).Current := current_rxTryStart (current_update _)

theorem current_rxPoll (h : s.Current) : (s.rxPoll c).Current := by
  have ht := h.modify (c := c) (f := fun ch => { ch with rxPollScheduled := false }) ⟨rfl, rfl, rfl⟩
  unfold rxPoll
  extract_lets t
  split
  · exact ht
  · exact (current_rxTryStart ht).modify (quiet_rxPollArm _ _ _)

theorem current_scheduleTxComplete (h : s.Current) : (s.scheduleTxComplete c).Current := by
  unfold scheduleTxComplete
  split
  · exact h.modify (quiet_startTx _ _)
  · exact current_update _

theorem current_scheduleRxComplete (h : s.Current) : (s.scheduleRxComplete c).Current := by
  unfold scheduleRxComplete
  split
  · exact h.modify (quiet_startRx _ _)
  · exact current_rxComplete c _

theorem current_updateTimingSources (h : s.Current) : (s.updateTimingSources c).Current := by
  have hset : Quiet (s.chan c) (s.chan c).setBaudRate := ⟨rfl, rfl, rfl⟩
  have hbaud := hset.trans (quiet_pushLineParams _)
  unfold updateTimingSources
  extract_lets t u v
  have ht : t.Current := h.modify hbaud
  have hu : u.Current := by
    unfold u
    split
    · exact current_scheduleTxComplete ht
    · exact ht
  have hv : v.Current := by
    unfold v
    split
    · exact current_scheduleRxComplete hu
    · exact hu
  exact hv.modify (quiet_zcArm _ _ _)

theorem current_zcTick (c : Channel) (s : Z85C30) : (s.zcTick c).Current := by
  unfold zcTick
  extract_lets t
  have ht : t.Current := current_update _
  have hdone : Quiet (t.chan c) (t.chan c).zcDone := ⟨rfl, rfl, rfl⟩
  exact ht.modify (hdone.trans (quiet_zcArm _ _ _))

def raisesTx (c : Channel) (data : Byte) (s : Z85C30) : Bool :=
  let ch := s.chan c
  s.timed && data.getLsbD 3 && ch.waiting && ch.txIntEnable && !ch.txIpLatch && !(ch.autoEnables && !ch.ctsIn)

def Calm (s : Z85C30) : Prop :=
  ∀ c, (s.chan c).qDev = [] ∨ s.timed = true ∧ ∀ msg ∈ (s.chan c).qDev, msg.type = .data

instance (s : Z85C30) : Decidable s.Calm :=
  let quiet (c : Channel) := (s.chan c).qDev = [] ∨ s.timed = true ∧ ∀ msg ∈ (s.chan c).qDev, msg.type = .data
  decidable_of_iff (quiet .a ∧ quiet .b) ⟨fun h c => match c with | .a => h.1 | .b => h.2, fun h => ⟨h .a, h .b⟩⟩

def turnsMie (data : Byte) (s : Z85C30) : Prop :=
  data >>> 6 = 0 ∧ data.getLsbD 3 ≠ s.mie ∧
    (highestBit s.pendingSources > highestBit s.iusBits ∨ ¬ s.Calm)

theorem setW5_same (data : Byte) (ch : Chan) :
    let t := ((ch.setW 5 data).pushLineParams).linesOutUpdate false
    t.txEnable = data.getLsbD 3 ∧ t.waiting = ch.waiting ∧ t.txIntEnable = ch.txIntEnable ∧ t.txIpLatch = ch.txIpLatch ∧
      t.autoEnables = ch.autoEnables ∧ t.ctsIn = ch.ctsIn := by
  obtain ⟨q, l, hpush⟩ := pushLineParams_eq (ch.setW 5 data)
  rw [hpush]
  obtain ⟨q', l', b, hlines⟩ := linesOutUpdate_eq false { ch.setW 5 data with qHost := q, lineParamsLast := l }
  rw [hlines]
  exact ⟨rfl, rfl, rfl, rfl, rfl, rfl⟩

theorem quiet_load (h : ch.txIntEnable = true → ch.txIpLatch = true) : Quiet ch ch.load := by
  have havail : ch.load.rxCharAvailable = ch.rxCharAvailable := getLsbD_setBit true ch.rr0 (by decide) (by decide)
  refine ⟨?_, rfl, rfl⟩
  have htx : (ch.load.txIntEnable && ch.load.txIpLatch) = (ch.txIntEnable && ch.txIpLatch) := by
    show (ch.txIntEnable && (ch.txIpLatch || ch.txIntEnable)) = _
    cases hie : ch.txIntEnable with
    | true => rw [h hie]; rfl
    | false => rfl
  unfold Chan.sources
  rw [havail, htx]
  rfl

theorem current_writeRegister5 (data : Byte) (h : s.Current) (hraise : s.raisesTx c data = false) :
    (s.writeRegister5 c data).Current := by
  have hset := quiet_setW (s.chan c) (i := 5) data (by decide) (by decide)
  have hpush := quiet_pushLineParams ((s.chan c).setW 5 data)
  have hlines := quiet_linesOutUpdate false (((s.chan c).setW 5 data).pushLineParams)
  obtain ⟨henable, hwait, hie, hlatch, hauto, hcts⟩ := setW5_same data (s.chan c)
  unfold writeRegister5
  extract_lets t
  have ht : t.Current := h.modify ((hset.trans hpush).trans hlines)
  have hchan : t.chan c = (((s.chan c).setW 5 data).pushLineParams).linesOutUpdate false := chan_modify_self c _ s
  have htimed : t.timed = s.timed := modify_timed c _ s
  rw [← hchan] at henable hwait hie hlatch hauto hcts
  split
  · next hgo =>
    rw [henable, hwait, Bool.and_eq_true] at hgo
    by_cases hheld : (s.chan c).autoEnables = true ∧ (s.chan c).ctsIn = false
    · unfold txLoadShift
      rw [hauto, hcts, hheld.1, hheld.2]
      exact ht
    · refine current_txLoadShift ht (fun htrue => quiet_load (fun hie' => ?_))
      by_contra hclear
      refine absurd hraise ?_
      unfold raisesTx
      rw [htimed] at htrue
      rw [hie] at hie'
      rw [hlatch, Bool.not_eq_true] at hclear
      simp only [htrue, hgo.1, hgo.2, hie', hclear, Bool.not_false, Bool.true_and]
      cases ha : (s.chan c).autoEnables <;> cases hc : (s.chan c).ctsIn <;> first | decide | exact absurd ⟨ha, hc⟩ hheld
  · exact ht

theorem current_writeRegister9 (data : Byte) (h : s.Current)
    (hturn : data >>> 6 = 0 → data.getLsbD 3 = s.mie ∨ highestBit s.pendingSources ≤ highestBit s.iusBits) :
    (s.writeRegister9 data).Current := by
  unfold writeRegister9
  extract_lets t cmd
  split
  · exact current_update _
  split
  · exact current_update _
  split
  · exact current_update _
  · next h1 h2 h3 =>
    have hcmd : data >>> 6 = 0 := by
      have hsmall : cmd.toNat < 4 := by
        show (data >>> 6).toNat < 4
        rw [BitVec.toNat_ushiftRight, Nat.shiftRight_eq_div_pow]
        have := data.isLt
        omega
      have hne (n : Nat) (hn : n < 4) (hc : cmd ≠ BitVec.ofNat 8 n) : cmd.toNat ≠ n := fun heq =>
        hc (BitVec.eq_of_toNat_eq (by rw [heq, BitVec.toNat_ofNat]; omega))
      have h1' := hne 1 (by decide) h1
      have h2' := hne 2 (by decide) h2
      have h3' := hne 3 (by decide) h3
      exact BitVec.eq_of_toNat_eq (show cmd.toNat = 0 by omega)
    have hmie : t.mie = data.getLsbD 3 := rfl
    have hpending : t.pendingSources = s.pendingSources := rfl
    refine ⟨h.rr3, ?_⟩
    have hius : t.iusBits = s.iusBits := rfl
    show s.irqLine = _
    rw [h.line]
    unfold asserts
    rw [hpending, hmie, hius]
    rcases hturn hcmd with hsame | hlow
    · rw [hsame]
    · rw [decide_eq_false (Nat.not_lt.2 hlow), Bool.and_false, Bool.and_false]

theorem current_writeData (data : Byte) (h : s.Current) : (s.writeData c data).Current := by
  unfold writeData
  extract_lets t u
  split
  · exact current_updateQueues h
  · exact current_update _

theorem current_writeTiming {i : Fin 16} (data : Byte) (h : s.Current) (h1 : i ≠ 1) (h9 : i ≠ 9) :
    (s.writeTiming i c data).Current := current_updateTimingSources (h.modify (quiet_setW _ data h1 h9))

theorem current_plain {i : Fin 16} (data : Byte) (h : s.Current) (h1 : i ≠ 1) (h9 : i ≠ 9) :
    (s.modify c (·.setW i data)).Current := h.modify (quiet_setW _ data h1 h9)

theorem current_writeRegister15 (data : Byte) (h : s.Current) : (s.writeRegister15 c data).Current := by
  have hset := quiet_setW (s.chan c) (i := 15) data (by decide) (by decide)
  have hlast : Quiet ((s.chan c).setW 15 data)
      { (s.chan c).setW 15 data with extLastBits := ((s.chan c).setW 15 data).extLiveBits } := ⟨rfl, rfl, rfl⟩
  exact h.modify ((hset.trans hlast).trans (quiet_zcArm _ _ _))

theorem current_deselect (h : s.Current) : (s.deselect c).Current := h.modify ⟨rfl, rfl, rfl⟩

/-- The step leaves the line to be recomputed by the calls that there are. -/
def Announced (s : Z85C30) : Op → Prop
  | .writeCmd c data =>
    ((s.chan c).regSelect = 5 → s.raisesTx c data = false) ∧ ((s.chan c).regSelect = 9 → ¬ s.turnsMie data)
  | _ => True

instance (data : Byte) (s : Z85C30) : Decidable (s.turnsMie data) :=
  inferInstanceAs (Decidable (_ ∧ _ ∧ (_ ∨ _)))

instance (s : Z85C30) (op : Op) : Decidable (s.Announced op) := by
  cases op <;> unfold Announced <;> infer_instance

theorem current_writeSelected (data : Byte) (i : Nat) (h : s.Current) (h5 : i = 5 → s.raisesTx c data = false)
    (h9 : i = 9 → data >>> 6 = 0 → data.getLsbD 3 = s.mie ∨ highestBit s.pendingSources ≤ highestBit s.iusBits) :
    (s.writeSelected c i data).Current := by
  unfold writeSelected
  split
  · exact current_update _
  · exact h.modify (quiet_setW _ data (by decide) (by decide))
  · exact h.modify ((quiet_setW _ data (by decide) (by decide)).trans (quiet_pushLineParams _))
  · exact current_writeTiming data h (by decide) (by decide)
  · exact current_writeRegister5 data h (h5 rfl)
  · exact current_plain data h (by decide) (by decide)
  · exact current_plain data h (by decide) (by decide)
  · exact current_writeData data h
  · exact current_writeRegister9 data h (h9 rfl)
  · exact current_plain data h (by decide) (by decide)
  · exact current_writeTiming data h (by decide) (by decide)
  · exact current_writeTiming data h (by decide) (by decide)
  · exact current_writeTiming data h (by decide) (by decide)
  · exact current_writeTiming data h (by decide) (by decide)
  · exact current_writeRegister15 data h
  · exact h

theorem calm_rxTryStart (c : Channel) (s : Z85C30)
    (h : (s.chan c).qDev = [] ∨ s.timed = true ∧ ∀ msg ∈ (s.chan c).qDev, msg.type = .data) :
    ∃ f, s.rxTryStart c = s.modify c f ∧ Quiet (s.chan c) (f (s.chan c)) := by
  unfold rxTryStart
  split
  · refine ⟨id, ?_, .refl _⟩
    cases c <;> rfl
  · cases hq : (s.chan c).qDev with
    | nil => exact ⟨_, rfl, ⟨rfl, rfl, rfl⟩⟩
    | cons msg q =>
      rw [hq] at h
      obtain ⟨htimed, hdata⟩ := h.resolve_left (List.cons_ne_nil msg q)
      rw [rxLoop, if_pos (hdata msg (.head q))]
      extract_lets t u v
      split
      · exact ⟨_, rfl, ⟨rfl, rfl, rfl⟩⟩
      · have hu : u.timed = true := by
          show ((s.modify c _).modify c _).timed = true
          rw [modify_timed, modify_timed, htimed]
        rw [if_pos hu]
        refine ⟨_, (modify_modify ..).trans ((modify_modify ..).trans rfl), ?_⟩
        exact quiet_begin _ _ _ _

theorem calm_updateQueues (h : s.Calm) : s.updateQueues.pendingSources = s.pendingSources ∧
    s.updateQueues.iusBits = s.iusBits := by
  obtain ⟨f, hf, hquiet⟩ := calm_rxTryStart .a s (h .a)
  have hb : (s.rxTryStart .a).chan .b = s.chan .b := by
    rw [hf]
    rfl
  have htimed : (s.rxTryStart .a).timed = s.timed := by rw [hf, modify_timed]
  obtain ⟨g, hg, hquiet'⟩ := calm_rxTryStart .b (s.rxTryStart .a) (by rw [hb, htimed]; exact h .b)
  unfold updateQueues
  rw [hg, pendingSources_modify hquiet'.sources, hf, pendingSources_modify hquiet.sources]
  exact ⟨rfl, rfl⟩

theorem current_writeCmd (data : Byte) (h : s.Current) (hfit : s.Announced (.writeCmd c data)) :
    (s.writeCmd c data).Current := by
  have hlooks := looks_updateQueues s
  have hcurrent := current_updateQueues h
  unfold writeCmd
  extract_lets t
  change Looks s t at hlooks
  change t.Current at hcurrent
  obtain ⟨hlow, hmie⟩ := hfit
  split
  · exact current_update _
  · refine current_deselect (current_writeSelected data _ hcurrent (fun h5 => ?_) (fun h9 hcmd => ?_))
    · have hraise := hlow ((hlooks.2 c).sel ▸ h5)
      rw [Bool.eq_false_iff] at hraise ⊢
      intro hgo
      refine hraise ?_
      unfold raisesTx at hgo ⊢
      simp only [Bool.and_eq_true, Bool.not_eq_true'] at hgo ⊢
      obtain ⟨⟨⟨⟨⟨htimed, hdata⟩, hwait⟩, hie⟩, hlatch⟩, hheld⟩ := hgo
      obtain ⟨hwait', hlatch', hcts⟩ := (hlooks.2 c).waits hwait
      have hauto : (t.chan c).autoEnables = (s.chan c).autoEnables := by
        unfold autoEnables
        rw [(hlooks.2 c).w]
      have hie' : (t.chan c).txIntEnable = (s.chan c).txIntEnable := by
        unfold txIntEnable
        rw [(hlooks.2 c).w]
      refine ⟨⟨⟨⟨⟨hlooks.1.symm.trans htimed, hdata⟩, hwait'⟩, hie'.symm.trans hie⟩, hlatch'.symm.trans hlatch⟩, ?_⟩
      rw [Bool.eq_false_iff] at hheld ⊢
      intro hboth
      rw [Bool.and_eq_true, Bool.not_eq_true'] at hboth
      refine hheld ?_
      rw [hauto, hboth.1, hcts hboth.1 hboth.2]
      rfl
    · have hturn := hmie ((hlooks.2 c).sel ▸ h9)
      have hmie' : t.mie = s.mie := by
        show ((t.chan .a).w 9).getLsbD 3 = ((s.chan .a).w 9).getLsbD 3
        rw [(hlooks.2 .a).w]
      by_cases hsame : data.getLsbD 3 = s.mie
      · exact .inl (hsame.trans hmie'.symm)
      · right
        by_contra hhigh
        refine hturn ⟨hcmd, hsame, ?_⟩
        by_cases hcalm : s.Calm
        · obtain ⟨hpending, hius⟩ := calm_updateQueues hcalm
          change t.pendingSources = _ at hpending
          change t.iusBits = _ at hius
          rw [hpending, hius] at hhigh
          exact .inl (Nat.lt_of_not_le hhigh)
        · exact .inr hcalm

theorem current_readCmd (c : Channel) (s : Z85C30) : (s.readCmd c).2.Current := current_update _

theorem current_readData (c : Channel) (s : Z85C30) : (s.readData c).2.Current := by
  unfold readData
  extract_lets t
  split <;> exact current_update _

theorem current_setDeviceChannel (device : Option (List SerialMessage × List SerialMessage)) (c : Channel) (s : Z85C30) :
    (s.setDeviceChannel c device).Current := by
  have ht : ((s.modify c (connect device)).extUpdate c).Current := current_update _
  exact ht.modify (quiet_rxPollArm _ _ _)

theorem restore_current (s : Z85C30) (file : List Byte) (h : s.Current) : (((s.restore file).map Prod.fst).getD s).Current := by
  rcases restore_cases s file with hnone | ⟨a, b, rest, ip, ius, -, -, -, hsome⟩
  · rw [hnone]
    exact h
  · rw [hsome]
    exact current_update _

theorem current_step (op : Op) (hfit : s.Announced op) (h : s.Current) : (s.step op).Current := by
  cases op with
  | writeCmd c data => exact current_writeCmd data h hfit
  | writeData c data => exact current_writeData data h
  | readCmd c => exact current_readCmd c s
  | readData c => exact current_readData c s
  | setDevice c device => exact current_setDeviceChannel device c s
  | hwReset c => exact current_update _
  | softReset c => exact current_update _
  | reset => exact current_update _
  | restore file => exact restore_current s file h
  | fire c e =>
    unfold step
    dsimp only
    split
    · have hs := h.modify (c := c) (f := fun ch => { ch with pending := ch.pending.erase e }) ⟨rfl, rfl, rfl⟩
      obtain ⟨timer, due⟩ := e
      cases timer with
      | tx => exact current_update _
      | rx => exact current_rxComplete c _
      | rxPoll => exact current_rxPoll hs
      | zc => exact current_zcTick c _
    · exact h
  | tick n => exact ⟨h.rr3, h.line⟩
  | deviceSends c msg =>
    have hq : Quiet (s.chan c)
        (if (s.chan c).attached then { s.chan c with qDev := (send (s.chan c).qDev msg).1 } else s.chan c) := by
      split <;> exact ⟨rfl, rfl, rfl⟩
    exact h.modify (f := fun ch => if ch.attached then { ch with qDev := (send ch.qDev msg).1 } else ch) hq
  | deviceTakes c => exact h.modify (f := fun ch => { ch with qHost := ch.qHost.tail }) ⟨rfl, rfl, rfl⟩

/-- In a run without such a WR5 or WR9 write RR3 and the line are never stale. -/
theorem line_current (timed : Bool) (now : Nat) (ops : List Op) (h : Guarded step Announced (start timed now) ops) :
    (run step (start timed now) ops).Current :=
  h.invariant (fun _ op hfit hs => current_step op hfit hs) ops _ (current_update _)

/-- The master enable goes on first, then the transmit interrupt, and a byte is sent. -/
theorem line_current_sending :
    Guarded step Announced (start true 0) [.writeCmd .a 0x09, .writeCmd .a 0x08, .writeCmd .a 1, .writeCmd .a 2,
      .writeCmd .a 5, .writeCmd .a 8, .writeData .a 0x41] ∧
    Current (run step (start true 0) [.writeCmd .a 0x09, .writeCmd .a 0x08, .writeCmd .a 1, .writeCmd .a 2,
      .writeCmd .a 5, .writeCmd .a 8, .writeData .a 0x41]) :=
  ⟨by decide +kernel, line_current true 0 _ (by decide +kernel)⟩

/-- The master enable goes on last, with the transmit interrupt pending. -/
theorem line_stale :
    ¬ Current (run step (start true 0) [.writeCmd .a 1, .writeCmd .a 2, .writeCmd .a 5, .writeCmd .a 8,
      .writeData .a 0x41, .writeCmd .a 0x09, .writeCmd .a 0x08]) :=
  fun h => absurd h.line (by decide +kernel)

end

end Z85C30

end GSSquared.Serial
