/-
What each operation of the chip changes.
-/
import GSSquared.Uthernet.Chip
import GSSquared.Lib.Partial

set_option linter.all false

namespace GSSquared.Uthernet

open Bits Partial

namespace Chip

section

variable (s : Chip) (i j : Fin 4)

section

variable (a b : Index) (v : Byte)

@[simp] theorem setMem_sockets : (s.setMem a v).sockets = s.sockets := rfl
theorem setMem_memory : (s.setMem a v).memory b = if b = a then v else s.memory b := rfl

end

theorem setMems_cons (p : Index × Byte) (l : List (Index × Byte)) : s.setMems (p :: l) = (s.setMem p.1 p.2).setMems l :=
  rfl

section

variable (l : List (Index × Byte))

@[simp] theorem setMems_sockets : (s.setMems l).sockets = s.sockets := by
  induction l generalizing s with
  | nil => rfl
  | cons p l ih => exact ih (s.setMem p.1 p.2)

@[simp] theorem setMems_worker : (s.setMems l).worker = s.worker := by
  induction l generalizing s with
  | nil => rfl
  | cons p l ih => exact ih (s.setMem p.1 p.2)

@[simp] theorem setMems_stores : (s.setMems l).stores = s.stores := by
  induction l generalizing s with
  | nil => rfl
  | cons p l ih => exact ih (s.setMem p.1 p.2)

theorem setMems_memory_of_ne (a : Index) (h : ∀ p ∈ l, a ≠ p.1) : (s.setMems l).memory a = s.memory a := by
  induction l generalizing s with
  | nil => rfl
  | cons p l ih =>
    rw [setMems_cons, ih _ (fun q hq => h q (List.mem_cons_of_mem p hq)), setMem_memory,
      if_neg (h p List.mem_cons_self)]

end

section

variable (st : SocketState)

@[simp] theorem setSocket_sockets : (s.setSocket i st).sockets j = if j = i then st else s.sockets j := rfl
@[simp] theorem setSocket_worker : (s.setSocket i st).worker = s.worker := rfl
@[simp] theorem setSocket_stores : (s.setSocket i st).stores = s.stores := rfl
@[simp] theorem setSocket_memory : (s.setSocket i st).memory = s.memory := rfl
end

section

variable (status : Byte)

@[simp] theorem setStatus_sockets :
    (s.setStatus i status).sockets j = if j = i then { s.sockets i with status := status } else s.sockets j := rfl

@[simp] theorem setStatus_worker : (s.setStatus i status).worker = s.worker := rfl
@[simp] theorem setStatus_memory : (s.setStatus i status).memory = s.memory := rfl
end

@[simp] theorem setHeaderSize_sockets :
    (s.setHeaderSize i).sockets j =
      if j = i then { s.sockets i with headerSize := headerSizeOf (s.sockets i).status } else s.sockets j := rfl

@[simp] theorem setHeaderSize_worker : (s.setHeaderSize i).worker = s.worker := rfl
@[simp] theorem setHeaderSize_memory : (s.setHeaderSize i).memory = s.memory := rfl
@[simp] theorem resetRxtx_sockets :
    (s.resetRxtx i).sockets j = if j = i then { s.sockets i with snRxWr := 0, snRxRsr := 0 } else s.sockets j := by
  rw [resetRxtx, setMems_sockets, setSocket_sockets]

@[simp] theorem resetRxtx_worker : (s.resetRxtx i).worker = s.worker := by
  rw [resetRxtx, setMems_worker, setSocket_worker]

@[simp] theorem resetRxtx_stores : (s.resetRxtx i).stores = s.stores := by
  rw [resetRxtx, setMems_stores, setSocket_stores]

def rsr : Nat :=
  if (s.sockets i).receiveSize = 0 then 0 else present (s.sockets i).receiveSize (s.rxRd i) (s.sockets i).snRxWr

@[simp] theorem updateRsr_sockets :
    (s.updateRsr i).sockets j = if j = i then { s.sockets i with snRxRsr := s.rsr i } else s.sockets j := rfl

section

variable (bits : Byte)

@[simp] theorem raiseIr_sockets : (s.raiseIr i bits).sockets = s.sockets := by
  unfold raiseIr
  split <;> rfl

@[simp] theorem raiseIr_worker : (s.raiseIr i bits).worker = s.worker := by
  unfold raiseIr
  split <;> rfl

@[simp] theorem raiseIr_stores : (s.raiseIr i bits).stores = s.stores := by
  unfold raiseIr
  split <;> rfl

theorem raiseIr_memory_of_ne (a : Index) (h : a ≠ reg i 0x02) : (s.raiseIr i bits).memory a = s.memory a := by
  unfold raiseIr
  split
  · rw [setMem_memory, if_neg h]
  · rfl

end

section

variable (ip : Ip) (port : Nat)

@[simp] theorem setPeer_sockets : (s.setPeer i ip port).sockets = s.sockets := by
  unfold setPeer
  split
  · exact s.setMems_sockets _
  · rfl

@[simp] theorem setPeer_worker : (s.setPeer i ip port).worker = s.worker := by
  unfold setPeer
  split
  · exact s.setMems_worker _
  · rfl

@[simp] theorem setPeer_stores : (s.setPeer i ip port).stores = s.stores := by
  unfold setPeer
  split
  · exact s.setMems_stores _
  · rfl

end

@[simp] theorem consume_sockets : (s.consume i).sockets = s.sockets := s.setMems_sockets _
@[simp] theorem consume_worker : (s.consume i).worker = s.worker := s.setMems_worker _

section

variable (req : NetRequest)

@[simp] theorem post_sockets : (s.post req).sockets = s.sockets := rfl
@[simp] theorem post_worker : (s.post req).worker = (s.worker.post req).1 := rfl
@[simp] theorem post_memory : (s.post req).memory = s.memory := rfl
end

@[simp] theorem dropHost_sockets :
    (s.dropHost i).sockets j =
      if j = i then { s.sockets i with status := Sr.closed, rxPending := [] } else s.sockets j := rfl

section

variable (how : NetMsg)

@[simp] theorem closeHost_sockets :
    (s.closeHost i how).sockets j =
      if j = i then { s.sockets i with gen := (s.sockets i).gen + 1, rxPending := [] } else s.sockets j := rfl

@[simp] theorem closeHost_worker :
    (s.closeHost i how).worker =
      (s.worker.post { msg := how, sock := i, gen := (s.sockets i).gen + 1 }).1.setRxCredit i 0 := rfl

@[simp] theorem closeHost_stores : (s.closeHost i how).stores = s.stores := rfl

end

theorem openSocket_sockets :
    (s.openSocket i).sockets j =
      if j = i then
        { s.sockets i with
          gen := (s.sockets i).gen + 1
          rxPending := []
          status := openStatus i (s.protocol i)
          headerSize := headerSizeOf (openStatus i (s.protocol i))
          snRxWr := 0
          snRxRsr := 0 }
      else s.sockets j := by
  unfold openSocket
  simp only [resetRxtx_sockets, setHeaderSize_sockets, setStatus_sockets]
  by_cases hj : j = i
  · simp only [hj, if_true]
    split
    · simp
    · split <;> simp
  · simp only [hj, if_false]
    split
    · simp [hj]
    · split <;> simp [hj]

section

variable (value : Byte)

@[simp] theorem setRxSizes_sockets :
    (s.setRxSizes value).sockets j =
      { s.sockets j with
        receiveBase := (window rxBase memSize value j).1
        receiveSize := (window rxBase memSize value j).2 } := rfl

@[simp] theorem setRxSizes_stores : (s.setRxSizes value).stores = s.stores := rfl

@[simp] theorem setTxSizes_sockets :
    (s.setTxSizes value).sockets j =
      { s.sockets j with
        transmitBase := (window txBase rxBase value j).1
        transmitSize := (window txBase rxBase value j).2 } := rfl

@[simp] theorem setTxSizes_stores : (s.setTxSizes value).stores = s.stores := rfl

end

def deliver (i : Fin 4) (ev : NetEvent) (s : Chip) : Option Chip :=
  match ev.evt with
  | .status => some (s.applyStatus i ev)
  | .rxTcp => do
      let s' ← s.ingestTcp i ev.payload
      some (if (s'.sockets i).snRxRsr ≠ (s.sockets i).snRxRsr then s'.raiseIr i Ir.recv else s')
  | .rxUdp => s.storePacket i (ev.srcIp.bytes ++ be16Bytes ev.srcPort ++ be16Bytes ev.payload.length) ev.payload
  | .macRawRx => s.ingestMacraw ev.payload
  | .ipRawRx => s.storePacket i (ev.srcIp.bytes ++ be16Bytes ev.payload.length) ev.payload
  | .sendDone => some (s.raiseIr i (if ev.cause = .failed then Ir.timeout else Ir.sendOk))
  | .none => some s

theorem applyEvent_of_ge {ev : NetEvent} (h : ¬ ev.sock < 4) : s.applyEvent ev = some s := dif_neg h

theorem applyEvent_of_stale {ev : NetEvent} (hi : ev.sock = i.val)
    (hstale : ev.evt ≠ .macRawRx ∧ ev.gen ≠ (s.sockets i).gen) : s.applyEvent ev = some s := by
  obtain ⟨i, hlt⟩ := i
  subst hi
  rw [applyEvent, dif_pos hlt]
  exact if_pos hstale

theorem applyEvent_of_live {ev : NetEvent} (hi : ev.sock = i.val)
    (hlive : ¬ (ev.evt ≠ .macRawRx ∧ ev.gen ≠ (s.sockets i).gen)) : s.applyEvent ev = s.deliver i ev := by
  obtain ⟨i, hlt⟩ := i
  subst hi
  rw [applyEvent, dif_pos hlt]
  exact if_neg hlive

end

end Chip

end GSSquared.Uthernet
