/-
The layout of the chip, over every run.
-/
import GSSquared.Uthernet.Windows

set_option linter.all false

namespace GSSquared.Uthernet

open Bits Partial

structure SocketState.Fits (st : SocketState) : Prop where
  wr : st.snRxWr < 0x10000
  rsr : st.snRxRsr < 0x10000
  header : st.headerSize < 0x100

structure SocketState.Sits (st st' : SocketState) : Prop where
  transmitBase : st'.transmitBase = st.transmitBase
  transmitSize : st'.transmitSize = st.transmitSize
  receiveBase : st'.receiveBase = st.receiveBase
  receiveSize : st'.receiveSize = st.receiveSize
  fits : st.Fits → st'.Fits

theorem SocketState.Sits.refl (st : SocketState) : st.Sits st := ⟨rfl, rfl, rfl, rfl, id⟩

theorem rmsr_lt : 0x1A < memSize := by decide

theorem tmsr_lt : 0x1B < memSize := by decide

/-- `RMSR` and `TMSR`. -/
def rmsr : Index := ⟨0x1A, rmsr_lt⟩

def tmsr : Index := ⟨0x1B, tmsr_lt⟩

namespace Chip

structure Laid (s : Chip) : Prop where
  rx : ∀ i,
    (s.sockets i).receiveBase = (window rxBase memSize (s.memory rmsr) i).1 ∧
      (s.sockets i).receiveSize = (window rxBase memSize (s.memory rmsr) i).2
  tx : ∀ i,
    (s.sockets i).transmitBase = (window txBase rxBase (s.memory tmsr) i).1 ∧
      (s.sockets i).transmitSize = (window txBase rxBase (s.memory tmsr) i).2
  fits : ∀ i, (s.sockets i).Fits
  latch : s.dataAddr < 0x10000
  ind : s.mode ||| 0x01 = s.mode

section

variable {s t : Chip} {i : Fin 4}

theorem Laid.of_sits (h : Laid s) (hrmsr : t.memory rmsr = s.memory rmsr) (htmsr : t.memory tmsr = s.memory tmsr)
    (hmode : t.mode = s.mode) (hlatch : t.dataAddr = s.dataAddr) (hs : ∀ i, (s.sockets i).Sits (t.sockets i)) :
    Laid t := by
  refine ⟨fun i => ?_, fun i => ?_, fun i => (hs i).fits (h.fits i), hlatch ▸ h.latch, hmode ▸ h.ind⟩
  · rw [(hs i).receiveBase, (hs i).receiveSize, hrmsr]
    exact h.rx i
  · rw [(hs i).transmitBase, (hs i).transmitSize, htmsr]
    exact h.tx i

theorem Laid.setSocket (h : Laid s) {st : SocketState} (hst : (s.sockets i).Sits st) : Laid (s.setSocket i st) := by
  refine h.of_sits rfl rfl rfl rfl (fun j => ?_)
  rw [setSocket_sockets]
  by_cases hj : j = i
  · rw [if_pos hj, hj]
    exact hst
  · rw [if_neg hj]
    exact .refl _

theorem Laid.withWorker (h : Laid s) (worker : NetWorker) : Laid { s with worker := worker } :=
  h.of_sits rfl rfl rfl rfl (fun _ => .refl _)

theorem Laid.setMem (h : Laid s) {a : Index} (hr : a ≠ rmsr) (ht : a ≠ tmsr) (v : Byte) : Laid (s.setMem a v) :=
  h.of_sits (if_neg hr.symm) (if_neg ht.symm) rfl rfl (fun _ => .refl _)

theorem reg_ne_rmsr (i : Fin 4) (r : Fin 0x100) : reg i r ≠ rmsr := by
  intro h
  have := congrArg Fin.val h
  simp only [reg, rmsr] at this
  omega

theorem reg_ne_tmsr (i : Fin 4) (r : Fin 0x100) : reg i r ≠ tmsr := by
  intro h
  have := congrArg Fin.val h
  simp only [reg, tmsr] at this
  omega

theorem Laid.setReg (h : Laid s) (i : Fin 4) (r : Fin 0x100) (v : Byte) : Laid (s.setMem (reg i r) v) :=
  h.setMem (reg_ne_rmsr i r) (reg_ne_tmsr i r) v

theorem Laid.setMems {l : List (Index × Byte)} (h : Laid s) (hl : ∀ p ∈ l, p.1 ≠ rmsr ∧ p.1 ≠ tmsr) :
    Laid (s.setMems l) := by
  induction l generalizing s with
  | nil => exact h
  | cons p l ih =>
    rw [setMems_cons]
    have hp := hl p List.mem_cons_self
    exact ih (h.setMem hp.1 hp.2 p.2) (fun q hq => hl q (List.mem_cons_of_mem p hq))

theorem Laid.setRegs {l : List (Index × Byte)} (h : Laid s) (hl : ∀ p ∈ l, ∃ i r, p.1 = reg i r) :
    Laid (s.setMems l) := by
  refine h.setMems (fun p hp => ?_)
  obtain ⟨i, r, hr⟩ := hl p hp
  rw [hr]
  exact ⟨reg_ne_rmsr i r, reg_ne_tmsr i r⟩

theorem Laid.raiseIr (h : Laid s) (i : Fin 4) (bits : Byte) : Laid (s.raiseIr i bits) := by
  unfold Chip.raiseIr
  split
  · exact h.setReg i _ _
  · exact h

theorem Laid.setPeer (h : Laid s) (i : Fin 4) (ip : Ip) (port : Nat) : Laid (s.setPeer i ip port) := by
  unfold Chip.setPeer
  split
  · refine h.setRegs ?_
    intro p hp
    simp only [List.mem_cons, List.not_mem_nil, or_false] at hp
    rcases hp with rfl | rfl | rfl | rfl | rfl | rfl
    all_goals exact ⟨i, _, rfl⟩
  · exact h

theorem Laid.consume (h : Laid s) (i : Fin 4) : Laid (s.consume i) := by
  refine h.setRegs ?_
  intro p hp
  simp only [List.mem_cons, List.not_mem_nil, or_false] at hp
  rcases hp with rfl | rfl
  all_goals exact ⟨i, _, rfl⟩

theorem Laid.post (h : Laid s) (req : NetRequest) : Laid (s.post req) := h.withWorker _

theorem Laid.setStatus (h : Laid s) (i : Fin 4) (status : Byte) : Laid (s.setStatus i status) :=
  h.setSocket ⟨rfl, rfl, rfl, rfl, fun hf => ⟨hf.wr, hf.rsr, hf.header⟩⟩

theorem headerSizeOf_lt (status : Byte) : headerSizeOf status < 0x100 := by
  unfold headerSizeOf
  split
  · decide
  · split
    · decide
    · split <;> decide

theorem Laid.setHeaderSize (h : Laid s) (i : Fin 4) : Laid (s.setHeaderSize i) :=
  h.setSocket ⟨rfl, rfl, rfl, rfl, fun hf => ⟨hf.wr, hf.rsr, headerSizeOf_lt _⟩⟩

theorem Laid.resetRxtx (h : Laid s) (i : Fin 4) : Laid (s.resetRxtx i) := by
  refine Laid.setRegs
    (h.setSocket ⟨rfl, rfl, rfl, rfl, fun hf => ⟨Nat.zero_lt_succ _, Nat.zero_lt_succ _, hf.header⟩⟩) ?_
  intro p hp
  simp only [List.mem_cons, List.not_mem_nil, or_false] at hp
  rcases hp with rfl | rfl | rfl | rfl | rfl | rfl
  all_goals exact ⟨i, _, rfl⟩

theorem Laid.size_le (h : Laid s) (i : Fin 4) :
    rxBase ≤ (s.sockets i).receiveBase ∧ (s.sockets i).receiveBase + (s.sockets i).receiveSize ≤ memSize := by
  rw [(h.rx i).1, (h.rx i).2]
  exact window_inside _ (by decide) i

theorem present_le {size : Nat} (hsize : size ≠ 0) (rd wr : Nat) : present size rd wr < size := by
  have hrd := Nat.and_le_right (n := rd) (m := size - 1)
  have hwr := Nat.and_le_right (n := wr) (m := size - 1)
  unfold present
  simp only
  split
  · omega
  · omega

theorem Laid.updateRsr (h : Laid s) (i : Fin 4) : Laid (s.updateRsr i) := by
  refine h.setSocket ⟨rfl, rfl, rfl, rfl, fun hf => ⟨hf.wr, ?_, hf.header⟩⟩
  have hsize := (h.size_le i).2
  show (if (s.sockets i).receiveSize = 0 then 0 else _) < 0x10000
  split
  · decide
  · next h0 =>
    have hlt := present_le h0 (s.rxRd i) (s.sockets i).snRxWr
    unfold memSize at hsize
    omega

theorem Laid.setRxPending (h : Laid s) (i : Fin 4) (pending : List Byte) :
    Laid (s.setSocket i { s.sockets i with rxPending := pending }) :=
  h.setSocket ⟨rfl, rfl, rfl, rfl, fun hf => ⟨hf.wr, hf.rsr, hf.header⟩⟩

theorem Laid.dropHost (h : Laid s) (i : Fin 4) : Laid (s.dropHost i) :=
  have hclosed : Laid (s.setSocket i { s.sockets i with status := Sr.closed, rxPending := [] }) :=
    h.setSocket ⟨rfl, rfl, rfl, rfl, fun hf => ⟨hf.wr, hf.rsr, hf.header⟩⟩
  hclosed.withWorker _

theorem Laid.closeHost (h : Laid s) (i : Fin 4) (how : NetMsg) : Laid (s.closeHost i how) :=
  have hclosed : Laid (s.setSocket i { s.sockets i with gen := (s.sockets i).gen + 1, rxPending := [] }) :=
    h.setSocket ⟨rfl, rfl, rfl, rfl, fun hf => ⟨hf.wr, hf.rsr, hf.header⟩⟩
  (hclosed.post _).withWorker _

theorem Laid.openSocket (h : Laid s) (i : Fin 4) : Laid (s.openSocket i) := by
  unfold Chip.openSocket
  simp only
  have hclosed := h.closeHost i .closeHost
  refine (Laid.resetRxtx (Laid.setHeaderSize (Laid.setStatus ?_ i _) i) i).withWorker _
  split
  · exact hclosed.post _
  · split
    · exact hclosed.post _
    · exact hclosed

theorem Laid.listenSocket (h : Laid s) (i : Fin 4) (bound : Bool) : Laid (s.listenSocket i bound) := by
  unfold Chip.listenSocket
  simp only
  split
  · exact (h.withWorker _).setStatus i _
  · exact (((h.closeHost i _).setStatus i _).setHeaderSize i).raiseIr i _

theorem Laid.applyStatus (h : Laid s) (i : Fin 4) (ev : NetEvent) : Laid (s.applyStatus i ev) := by
  unfold Chip.applyStatus
  split
  · exact (((h.setStatus i _).setPeer i _ _).setHeaderSize i).raiseIr i _
  · exact ((h.setStatus i _).setHeaderSize i).raiseIr i _
  · exact ((h.dropHost i).setHeaderSize i).raiseIr i _
  · exact ((h.dropHost i).setHeaderSize i).raiseIr i _
  · exact (h.setStatus i _).setHeaderSize i

end

section

variable {s : Chip}

theorem Laid.writeRxByte (h : Laid s) (i : Fin 4) (v : Byte) : Whenever (s.writeRxByte i v) Laid := by
  have hin := h.size_le i
  unfold Chip.writeRxByte
  simp only
  split
  · exact whenever_some.2 h
  · next h0 =>
    split
    · next hlast =>
      rw [whenever_some]
      have hr : (⟨(s.sockets i).receiveBase + (s.sockets i).snRxWr, hlast⟩ : Index) ≠ rmsr := by
        intro he
        have := congrArg Fin.val he
        simp only [rmsr] at this
        unfold rxBase at hin
        omega
      have ht : (⟨(s.sockets i).receiveBase + (s.sockets i).snRxWr, hlast⟩ : Index) ≠ tmsr := by
        intro he
        have := congrArg Fin.val he
        simp only [tmsr] at this
        unfold rxBase at hin
        omega
      have hwr : ((s.sockets i).snRxWr + 1) % (s.sockets i).receiveSize < 0x10000 := by
        have hlt := Nat.mod_lt ((s.sockets i).snRxWr + 1) (Nat.pos_of_ne_zero h0)
        unfold memSize at hin
        omega
      have hsits : (s.sockets i).Sits { s.sockets i with
          snRxWr := ((s.sockets i).snRxWr + 1) % (s.sockets i).receiveSize
          snRxRsr := ((s.sockets i).snRxRsr + 1) % 0x10000 } :=
        ⟨rfl, rfl, rfl, rfl, fun hf => ⟨hwr, Nat.mod_lt _ (by decide), hf.header⟩⟩
      have hstep := (h.setMem hr ht v).setSocket hsits
      exact hstep.of_sits rfl rfl rfl rfl (fun _ => .refl _)
    · exact whenever_none

theorem Laid.writeRxData (h : Laid s) (i : Fin 4) (vs : List Byte) : Whenever (s.writeRxData i vs) Laid := by
  induction vs generalizing s with
  | nil => exact whenever_some.2 h
  | cons v vs ih => exact (h.writeRxByte i v).bind (fun t ht => ih ht)

theorem Laid.flushLoop (h : Laid s) (i : Fin 4) (fuel moved : Nat) :
    Whenever (s.flushLoop i fuel moved) (fun r => Laid r.1) := by
  induction fuel generalizing s moved with
  | zero => exact whenever_some.2 h
  | succ fuel ih =>
    rw [Chip.flushLoop]
    simp only
    split
    · exact whenever_some.2 h
    · exact (h.writeRxData i _).bind (fun t ht => ih (ht.setRxPending i _) _)

theorem Laid.flushRaise (h : Laid s) (i : Fin 4) : Whenever (s.flushRaise i) Laid := by
  refine (h.flushLoop i _ 0).bind (fun r hr => ?_)
  simp only [whenever_some]
  split
  · exact hr.raiseIr i _
  · exact hr

theorem Laid.ingestTcp (h : Laid s) (i : Fin 4) (data : List Byte) : Whenever (s.ingestTcp i data) Laid := by
  refine (h.flushLoop i _ 0).bind (fun r hr => ?_)
  exact (hr.writeRxData i _).bind (fun t ht => whenever_some.2 (ht.setRxPending i _))

theorem Laid.storePacket (h : Laid s) (i : Fin 4) (header payload : List Byte) :
    Whenever (s.storePacket i header payload) Laid := by
  unfold Chip.storePacket
  split
  · exact (h.writeRxData i _).bind (fun t ht => whenever_some.2 (ht.raiseIr i _))
  · exact whenever_some.2 h

theorem Laid.storeMacraw (h : Laid s) (toUs broadcast : Bool) (frame : List Byte) :
    Whenever (s.storeMacraw toUs broadcast frame) Laid := by
  unfold Chip.storeMacraw
  split
  · exact whenever_some.2 h
  · split
    · exact whenever_some.2 h
    · exact h.storePacket 0 _ _

theorem Laid.ingestMacraw (h : Laid s) (frame : List Byte) : Whenever (s.ingestMacraw frame) Laid := by
  unfold Chip.ingestMacraw
  split
  · exact whenever_some.2 h
  · simp only
    split
    · next i _ =>
      split
      · exact h.storePacket i _ _
      · exact h.storeMacraw _ _ frame
    · exact h.storeMacraw _ _ frame

theorem Laid.applyEvent (h : Laid s) (ev : NetEvent) : Whenever (s.applyEvent ev) Laid := by
  unfold Chip.applyEvent
  split
  · simp only
    split
    · exact whenever_some.2 h
    · split
      · exact whenever_some.2 (h.applyStatus _ ev)
      · refine (h.ingestTcp _ _).bind (fun t ht => ?_)
        rw [whenever_some]
        split
        · exact ht.raiseIr _ _
        · exact ht
      · exact h.storePacket _ _ _
      · exact h.ingestMacraw _
      · exact h.storePacket _ _ _
      · exact whenever_some.2 (h.raiseIr _ _)
      · exact whenever_some.2 h
  · exact whenever_some.2 h

theorem Laid.frameTick (h : Laid s) : Whenever s.frameTick Laid := by
  have hflush : Whenever s.flushAll Laid := by
    refine whenever_foldlM (fun t i ht => ?_) h
    split
    · exact whenever_some.2 ht
    · exact ht.flushRaise i
  exact hflush.bind (fun t ht => whenever_foldlM (fun u ev hu => hu.applyEvent ev) (ht.withWorker _))

theorem Laid.sendData (h : Laid s) (i : Fin 4) : Whenever (s.sendData i) Laid := by
  unfold Chip.sendData
  split
  · exact whenever_some.2 h
  · intro t ht
    obtain ⟨packet, _, ht⟩ := Option.bind_eq_some_iff.mp ht
    cases ht
    exact (h.consume i).post _

theorem Laid.receive (h : Laid s) (i : Fin 4) : Whenever (s.receive i) Laid := by
  unfold Chip.receive
  simp only
  refine Laid.flushRaise ?_ i
  split
  · exact (h.updateRsr i).withWorker _
  · exact h.updateRsr i

theorem Laid.handleCommand (h : Laid s) (i : Fin 4) (cmd : Byte) (bound : Bool) :
    Whenever (s.handleCommand i cmd bound) Laid := by
  unfold Chip.handleCommand
  simp only
  split
  · exact whenever_some.2 (h.openSocket i)
  split
  · rw [whenever_some]
    split
    · exact h.listenSocket i bound
    · exact h
  split
  · rw [whenever_some]
    split
    · exact (h.post _).setStatus i _
    · exact h
  split
  · rw [whenever_some]
    split
    · exact (((h.closeHost i _).setStatus i _).setHeaderSize i).raiseIr i _
    · exact h
  split
  · exact whenever_some.2 (((h.closeHost i _).setStatus i _).setHeaderSize i)
  split
  · exact h.sendData i
  split
  · rw [whenever_some]
    split
    · exact h.raiseIr i _
    · exact h
  split
  · exact h.receive i
  · exact whenever_some.2 h

theorem Laid.setAddress (h : Laid s) {address : Nat} (ha : address < memSize) (hne : address ≠ 0x1A ∧ address ≠ 0x1B)
    (v : Byte) : Laid (s.setMem ⟨address, ha⟩ v) := by
  refine h.setMem ?_ ?_ v
  · intro he
    exact hne.1 (congrArg Fin.val he)
  · intro he
    exact hne.2 (congrArg Fin.val he)

theorem Laid.writeSocketReg (h : Laid s) (address : Nat) (ha : 0x400 ≤ address ∧ address ≤ 0x7FF) (value : Byte)
    (bound : Bool) : Whenever (s.writeSocketReg address ha value bound) Laid := by
  have hne : address ≠ 0x1A ∧ address ≠ 0x1B := by omega
  unfold Chip.writeSocketReg
  simp only
  split
  · split
    · exact (h.handleCommand _ value bound).bind (fun t ht => whenever_some.2 (ht.setAddress _ hne _))
    · exact whenever_some.2 (h.setAddress _ hne _)
  all_goals first | exact whenever_some.2 h | exact whenever_some.2 (h.setAddress _ hne _)

theorem Laid.setRxSizes (h : Laid s) (value : Byte) : Laid (s.setRxSizes value) :=
  ⟨fun _ => ⟨rfl, rfl⟩, h.tx, fun i => ⟨(h.fits i).wr, (h.fits i).rsr, (h.fits i).header⟩, h.latch, h.ind⟩

theorem Laid.setTxSizes (h : Laid s) (value : Byte) : Laid (s.setTxSizes value) :=
  ⟨h.rx, fun _ => ⟨rfl, rfl⟩, fun i => ⟨(h.fits i).wr, (h.fits i).rsr, (h.fits i).header⟩, h.latch, h.ind⟩

@[simp] theorem setMems_mode (s : Chip) (l : List (Index × Byte)) : (s.setMems l).mode = s.mode := by
  induction l generalizing s with
  | nil => rfl
  | cons p l ih => exact ih (s.setMem p.1 p.2)

@[simp] theorem setMems_dataAddr (s : Chip) (l : List (Index × Byte)) : (s.setMems l).dataAddr = s.dataAddr := by
  induction l generalizing s with
  | nil => rfl
  | cons p l ih => exact ih (s.setMem p.1 p.2)

theorem laid_reset (s : Chip) (powerCycle : Bool) (hlatch : s.dataAddr < 0x10000) : Laid (s.reset powerCycle) := by
  unfold reset
  simp only
  refine List.foldlRecOn (motive := Laid) _ _ ?_ (fun t ht i _ => ht.resetRxtx i)
  have hkept : ∀ u : Chip, ((List.finRange 4).foldl resetSocket u).mode = u.mode ∧
      ((List.finRange 4).foldl resetSocket u).dataAddr = u.dataAddr := by
    intro u
    refine List.foldlRecOn (motive := fun t : Chip => t.mode = u.mode ∧ t.dataAddr = u.dataAddr) _ _ ⟨rfl, rfl⟩ ?_
    intro t ht i _
    rw [resetSocket, setMems_mode, setMems_dataAddr]
    exact ht
  refine ⟨fun _ => ⟨rfl, rfl⟩, fun _ => ⟨rfl, rfl⟩, fun i => ?_, ?_, ?_⟩
  · simp only [setTxSizes_sockets, setRxSizes_sockets, setMems_sockets, resetSockets_sockets]
    exact ⟨Nat.zero_lt_succ _, Nat.zero_lt_succ _, Nat.zero_lt_succ _⟩
  · show (((List.finRange 4).foldl resetSocket _).setMems _).dataAddr < 0x10000
    rw [setMems_dataAddr, (hkept _).2]
    cases powerCycle
    · exact hlatch
    · exact Nat.zero_lt_succ _
  · show (((List.finRange 4).foldl resetSocket _).setMems _).mode ||| 0x01 = (((List.finRange 4).foldl resetSocket _).setMems _).mode
    rw [setMems_mode, (hkept _).1]
    exact (by decide : (0x01 : Byte) ||| 0x01 = 0x01)

theorem Laid.writeMode (h : Laid s) (value : Byte) : Laid (s.writeMode value) := by
  unfold Chip.writeMode
  split
  · exact laid_reset s false h.latch
  · refine ⟨h.rx, h.tx, h.fits, h.latch, ?_⟩
    show value ||| 0x01 ||| 0x01 = value ||| 0x01
    rw [BitVec.or_assoc, BitVec.or_self]

theorem Laid.writeAt (h : Laid s) (address : Nat) (value : Byte) (bound : Bool) :
    Whenever (s.writeAt address value bound) Laid := by
  unfold Chip.writeAt
  split
  · exact whenever_some.2 (h.writeMode value)
  split
  · exact whenever_some.2 (h.setAddress _ (by decide) _)
  split
  · exact whenever_some.2 (h.setRxSizes value)
  split
  · exact whenever_some.2 (h.setTxSizes value)
  split
  · exact whenever_some.2 (h.setAddress _ (by omega) _)
  split
  · exact h.writeSocketReg address _ value bound
  split
  · exact whenever_some.2 (h.setAddress _ (by omega) _)
  · exact whenever_some.2 h

theorem Laid.autoIncrement (h : Laid s) : Laid s.autoIncrement := by
  unfold Chip.autoIncrement
  split
  · refine ⟨h.rx, h.tx, h.fits, ?_, h.ind⟩
    have hnext := Nat.mod_lt (s.dataAddr + 1) (y := 0x10000) (by decide)
    simp only
    split
    · omega
    · exact hnext
  · exact h

theorem Laid.ioRead (h : Laid s) (loc : Nat) : Laid (s.ioRead loc).2 := by
  unfold Chip.ioRead
  split
  · exact h
  · exact h
  · exact h
  · exact h.autoIncrement

theorem Laid.ioWrite (h : Laid s) (loc : Nat) (value : Byte) (bound : Bool) :
    Whenever (s.ioWrite loc value bound) Laid := by
  have hlatch := h.latch
  have hvalue := value.isLt
  unfold Chip.ioWrite
  split
  · exact whenever_some.2 (h.writeMode value)
  · refine whenever_some.2 ⟨h.rx, h.tx, h.fits, ?_, h.ind⟩
    show value.toNat * 0x100 + s.dataAddr % 0x100 < 0x10000
    omega
  · refine whenever_some.2 ⟨h.rx, h.tx, h.fits, ?_, h.ind⟩
    show s.dataAddr / 0x100 * 0x100 + value.toNat < 0x10000
    omega
  · exact (h.writeAt s.dataAddr value bound).bind (fun t ht => whenever_some.2 ht.autoIncrement)

theorem Laid.access (h : Laid s) (a : Access) : Whenever (s.access a) Laid := by
  cases a with
  | read loc => exact whenever_some.2 (h.ioRead loc)
  | write loc value bound => exact h.ioWrite loc value bound
  | frame => exact h.frameTick
  | reset powerCycle => exact whenever_some.2 (laid_reset s powerCycle h.latch)
  | host worker => exact whenever_some.2 (h.withWorker worker)

end

end Chip

end GSSquared.Uthernet
