/-
The credit of a connection.
-/
import GSSquared.Uthernet.Delivery
import GSSquared.Uthernet.Intake

set_option linter.all false

namespace GSSquared.Uthernet

open Bits Partial

def receivedFor (i : Fin 4) (gen : Nat) (e : NetEvent) : Bool := e.evt == .rxTcp && e.sock == i.val && e.gen == gen

def arriving (i : Fin 4) (gen : Nat) (q : List NetEvent) : Nat :=
  ((q.filter (receivedFor i gen)).map (fun e => e.payload.length)).sum

section

variable {i : Fin 4} {gen : Nat} {q : List NetEvent}

theorem arriving_cons (e : NetEvent) :
    arriving i gen (e :: q) = (if receivedFor i gen e = true then e.payload.length else 0) + arriving i gen q := by
  unfold arriving
  rw [List.filter_cons]
  split
  · rw [List.map_cons, List.sum_cons]
  · exact (Nat.zero_add _).symm

theorem arriving_pushed {ev : Option NetEvent}
    (h : ∀ e, ev = some e → receivedFor i gen e = true → q.length < ringCapacity) :
    arriving i gen (NetWorker.pushed ev q) = arriving i gen q + arriving i gen ev.toList := by
  unfold arriving
  rw [Net.filter_pushed h, List.map_append, List.sum_append]

theorem arriving_none (h : ∀ e ∈ q, receivedFor i gen e = false) : arriving i gen q = 0 := by
  unfold arriving
  rw [List.filter_eq_nil_iff.2 (fun e he => Bool.eq_false_iff.1 (h e he))]
  rfl

end

namespace Chip

def accounted (i : Fin 4) (s : Chip) : Nat :=
  s.worker.rxCredit i + arriving i (s.sockets i).gen s.worker.events + (s.sockets i).rxPending.length +
    (s.sockets i).snRxRsr

/-- The numbers of a socket's ring are right, and `n` bytes are missing from the sum. -/
structure Owes (i : Fin 4) (taken n : Nat) (s : Chip) : Prop where
  level : Level (s.rxRd i) taken (s.sockets i)
  total : s.accounted i + n = (s.sockets i).receiveSize - 1

/-- The same of a socket that has been opened for TCP, in a ring of a power of two. -/
def Balanced (i : Fin 4) (taken n : Nat) (s : Chip) : Prop :=
  tcpOpen (s.sockets i).status → (s.sockets i).receiveSize.isPowerOfTwo → Owes i taken n s

structure Even (i : Fin 4) (s t : Chip) : Prop where
  status : tcpOpen (s.sockets i).status
  gen : (t.sockets i).gen = (s.sockets i).gen
  size : (t.sockets i).receiveSize = (s.sockets i).receiveSize
  wr : (t.sockets i).snRxWr = (s.sockets i).snRxWr
  rsr : (t.sockets i).snRxRsr = (s.sockets i).snRxRsr
  pending : (t.sockets i).rxPending = (s.sockets i).rxPending
  rd : t.rxRd i = s.rxRd i
  credit : t.worker.rxCredit i = s.worker.rxCredit i
  events : t.worker.events = s.worker.events

def Stays (i : Fin 4) (s t : Chip) : Prop := tcpOpen (t.sockets i).status → Even i s t

section

variable {s t u : Chip} {i j : Fin 4} {taken n : Nat}

theorem Stays.refl (i : Fin 4) (s : Chip) : Stays i s s := fun h => ⟨h, rfl, rfl, rfl, rfl, rfl, rfl, rfl, rfl⟩

theorem Stays.trans (h : Stays i s t) (h' : Stays i t u) : Stays i s u := by
  intro hopen
  have hu := h' hopen
  have ht := h hu.status
  exact ⟨ht.status, hu.gen.trans ht.gen, hu.size.trans ht.size, hu.wr.trans ht.wr, hu.rsr.trans ht.rsr,
    hu.pending.trans ht.pending, hu.rd.trans ht.rd, hu.credit.trans ht.credit, hu.events.trans ht.events⟩

theorem stays_closed (h : ¬ tcpOpen (t.sockets i).status) : Stays i s t := fun hopen => absurd hopen h

theorem Balanced.stays (h : Balanced i taken n s) (hstays : Stays i s t) : Balanced i taken n t := by
  intro hopen hpow
  have heven := hstays hopen
  rw [heven.size] at hpow
  have howes := h heven.status hpow
  have hlevel := howes.level
  have htotal := howes.total
  refine ⟨⟨?_, ?_, ?_⟩, ?_⟩
  · rw [heven.wr, heven.rsr, heven.size, heven.rd]
    exact hlevel.wr
  · rw [heven.rsr]
    exact hlevel.stepped
  · rw [heven.rsr, heven.size]
    exact hlevel.room
  · unfold accounted at htotal ⊢
    rw [heven.credit, heven.gen, heven.events, heven.pending, heven.rsr, heven.size]
    exact htotal

theorem Balanced.closed (h : ¬ tcpOpen (s.sockets i).status) : Balanced i taken n s := fun hopen => absurd hopen h

theorem Apart.stays (h : Apart i s t) (hcredit : t.worker.rxCredit i = s.worker.rxCredit i)
    (hevents : t.worker.events = s.worker.events) : Stays i s t := by
  obtain ⟨base, size, hsocket⟩ := h.socket
  intro hopen
  rw [hsocket] at hopen
  exact ⟨hopen, by rw [hsocket], by rw [hsocket], by rw [hsocket], by rw [hsocket], by rw [hsocket], h.rd, hcredit, hevents⟩

theorem Fed.stays (h : Fed j s t) (hs : Safe s) (hij : i ≠ j) : Stays i s t :=
  (h.apart hs hij).stays (by rw [h.worker]) (by rw [h.worker])

theorem stays_setMem {a : Index} (h28 : a ≠ reg i 0x28) (h29 : a ≠ reg i 0x29) (v : Byte) : Stays i s (s.setMem a v) := by
  intro hopen
  refine ⟨hopen, rfl, rfl, rfl, rfl, rfl, ?_, rfl, rfl⟩
  unfold rxRd be16
  rw [setMem_memory, if_neg (Ne.symm h28), setMem_memory, if_neg (Ne.symm h29)]

theorem stays_setReg {r : Fin 0x100} (hr : r ≠ 0x28 ∧ r ≠ 0x29) (v : Byte) : Stays i s (s.setMem (reg j r) v) :=
  stays_setMem (fun heq => hr.1 (reg_inj.1 heq).2) (fun heq => hr.2 (reg_inj.1 heq).2) v

theorem stays_raiseIr (i j : Fin 4) (bits : Byte) (s : Chip) : Stays i s (s.raiseIr j bits) := by
  unfold Chip.raiseIr
  split
  · exact stays_setReg (by decide) _
  · exact .refl i s

theorem Owes.takesIn {data : List Byte} (h : Owes i taken (n + data.length) s) (hfed : Fed i s t) (hs : Safe s)
    (htakes : TakesIn i data s t) : Owes i taken n t := by
  obtain ⟨k, hk, hlength, hsocket⟩ := htakes
  have hrd : t.rxRd i = s.rxRd i := by
    have hinside := hs.inside i
    have h28 := reg_lt i 0x28
    have h29 := reg_lt i 0x29
    unfold rxRd be16
    rw [hfed.memory _ (by omega) (fun heq => absurd (reg_inj.1 heq).2 (by decide)),
      hfed.memory _ (by omega) (fun heq => absurd (reg_inj.1 heq).2 (by decide))]
  refine ⟨?_, ?_⟩
  · rw [hrd, hsocket]
    exact h.level.takeIn _ hk
  · have htotal := h.total
    unfold accounted at htotal ⊢
    rw [hfed.worker, hsocket]
    simp only [SocketState.takeIn, List.length_drop, List.length_append] at hlength ⊢
    omega

theorem Balanced.flushRaise (h : Balanced i taken n s) (hs : Safe s) (j : Fin 4) :
    Yields (s.flushRaise j) (fun t => Safe t ∧ Balanced i taken n t) := by
  obtain ⟨t, ht, hsafe, hfed⟩ := hs.flushRaise j
  refine ⟨t, ht, hsafe, ?_⟩
  by_cases hij : i = j
  · subst hij
    obtain ⟨wr, rsr, pending, hown⟩ := hfed.own
    intro hopen hpow
    rw [hown] at hopen hpow
    have howes := h hopen hpow
    obtain ⟨hfed, htakes⟩ := (flushRaise_takesIn hs howes.level.room).of_eq ht
    exact howes.takesIn hfed hs htakes
  · exact h.stays (hfed.stays hs hij)

theorem Balanced.flushAll (h : Balanced i taken n s) (hs : Safe s) :
    Yields s.flushAll (fun t => Safe t ∧ Balanced i taken n t) := by
  refine yields_foldlM (fun t j _ ht => ?_) ⟨hs, h⟩
  split
  · exact yields_some.2 ht
  · exact ht.2.flushRaise ht.1 j

structure Spends (j : Fin 4) (s t : Chip) : Prop where
  events : t.worker.events = s.worker.events
  credit : ∀ i, i ≠ j → t.worker.rxCredit i = s.worker.rxCredit i

theorem Spends.refl (j : Fin 4) (s : Chip) : Spends j s s := ⟨rfl, fun _ _ => rfl⟩

theorem Spends.trans (h : Spends j s t) (h' : Spends j t u) : Spends j s u :=
  ⟨h'.events.trans h.events, fun i hi => (h'.credit i hi).trans (h.credit i hi)⟩

theorem spends_of_eq (h : t.worker = s.worker) : Spends j s t := ⟨by rw [h], fun _ _ => by rw [h]⟩

theorem spends_post (j : Fin 4) (req : NetRequest) (s : Chip) : Spends j s (s.post req) :=
  ⟨(post_rest s.worker req).1, fun i _ => by rw [post_worker, post_credit]⟩

theorem spends_credit (j : Fin 4) (credit : Nat) (s : Chip) :
    Spends j s { s with worker := s.worker.setRxCredit j credit } := ⟨rfl, fun _ hi => if_neg hi⟩

theorem spends_closeHost (j : Fin 4) (how : NetMsg) (s : Chip) : Spends j s (s.closeHost j how) :=
  ⟨(post_rest s.worker _).1, fun _ hi => (if_neg hi).trans (congrFun (post_credit s.worker _) _)⟩

theorem spends_openSocket (j : Fin 4) (s : Chip) : Spends j s (s.openSocket j) := by
  unfold openSocket
  simp only
  have hend (u : Chip) (status : Byte) (credit : Nat) : Spends j u
      { ((u.setStatus j status).setHeaderSize j).resetRxtx j with
        worker := (((u.setStatus j status).setHeaderSize j).resetRxtx j).worker.setRxCredit j credit } :=
    (spends_of_eq (by rw [resetRxtx_worker, setHeaderSize_worker, setStatus_worker])).trans (spends_credit j credit _)
  refine Spends.trans ?_ (hend _ _ _)
  split
  · exact (spends_closeHost j _ s).trans (spends_post j _ _)
  · split
    · exact (spends_closeHost j _ s).trans (spends_post j _ _)
    · exact spends_closeHost j _ s

theorem spends_close (j : Fin 4) (how : NetMsg) (status bits : Byte) (s : Chip) :
    Spends j s ((((s.closeHost j how).setStatus j status).setHeaderSize j).raiseIr j bits) :=
  (spends_closeHost j how s).trans (spends_of_eq (by rw [raiseIr_worker, setHeaderSize_worker, setStatus_worker]))

theorem spends_listenSocket (j : Fin 4) (bound : Bool) (s : Chip) : Spends j s (s.listenSocket j bound) := by
  unfold listenSocket
  simp only
  split
  · exact (spends_post j _ s).trans (spends_of_eq rfl)
  · exact spends_close j _ _ _ s

theorem Safe.handleCommand_spends (h : Safe s) (j : Fin 4) (cmd : Byte) (bound : Bool) :
    Yields (s.handleCommand j cmd bound) (Spends j s) := by
  unfold Chip.handleCommand
  simp only
  split
  · exact yields_some.2 (spends_openSocket j s)
  split
  · rw [yields_some]
    split
    · exact spends_listenSocket j bound s
    · exact .refl j s
  split
  · rw [yields_some]
    split
    · exact (spends_post j _ s).trans (spends_of_eq rfl)
    · exact .refl j s
  split
  · rw [yields_some]
    split
    · exact spends_close j _ _ _ s
    · exact .refl j s
  split
  · exact yields_some.2 ((spends_closeHost j _ s).trans (spends_of_eq rfl))
  split
  · rcases effect_sendData h j with hnone | ⟨_, _, packet, _, hsome⟩
    · rw [hnone]
      exact yields_some.2 (.refl j s)
    · rw [hsome]
      exact yields_some.2 ((spends_of_eq (s.consume_worker j)).trans (spends_post j _ _))
  split
  · rw [yields_some]
    split
    · exact spends_of_eq (s.raiseIr_worker j _)
    · exact .refl j s
  split
  · unfold Chip.receive
    simp only
    have hcount := h.updateRsr j
    split
    · refine ((hcount.withWorker _).flushRaise j).mono (fun t ht => ?_)
      exact (spends_credit j _ _).trans (spends_of_eq ht.2.worker)
    · exact (hcount.flushRaise j).mono (fun t ht => spends_of_eq ht.2.worker)
  · exact yields_some.2 (.refl j s)

/-- A command other than RECV leaves the sum, or begins it for a generation. -/
inductive Fares (i : Fin 4) (s t : Chip) : Prop
  | stays (h : Stays i s t)
  | opened (hgen : (t.sockets i).gen ≠ (s.sockets i).gen) (h : Balanced i 0 0 t)

theorem tcp_of_openStatus {protocol : Byte} (h : tcpOpen (openStatus i protocol)) : protocol = Mr.tcp := by
  by_contra htcp
  revert h
  unfold openStatus
  split
  · decide
  split
  · split <;> decide
  split <;> decide

theorem balanced_openSocket {handled : List NetRequest} (h : Ordered handled s) (i : Fin 4) :
    Balanced i 0 0 (s.openSocket i) := by
  intro hopen hpow
  have hsocket := (s.openSocket_sockets i i).trans (if_pos rfl)
  have hsize : 0 < ((s.openSocket i).sockets i).receiveSize := Nat.pos_of_isPowerOfTwo hpow
  have htcp : s.protocol i = Mr.tcp := by
    rw [hsocket] at hopen
    exact tcp_of_openStatus hopen
  have hcredit : (s.openSocket i).worker.rxCredit i = ((s.openSocket i).sockets i).receiveSize - 1 := by
    rw [hsocket]
    refine (if_pos rfl).trans ((if_pos htcp).trans ?_)
    simp only [resetRxtx_sockets, setHeaderSize_sockets, setStatus_sockets, if_true, if_pos htcp, post_sockets,
      closeHost_sockets]
  have harriving : arriving i ((s.openSocket i).sockets i).gen (s.openSocket i).worker.events = 0 := by
    rw [(spends_openSocket i s).events, hsocket]
    refine arriving_none (fun e he => ?_)
    have hlater := Net.newsOf_later h (i := i) (Nat.lt_succ_self _) (h.events e he)
    rw [← Bool.not_eq_true]
    intro hreceived
    simp only [receivedFor, Bool.and_eq_true, beq_iff_eq] at hreceived
    exact hlater ⟨hreceived.1.2, hreceived.2⟩
  refine ⟨⟨?_, Nat.zero_le _, ?_⟩, ?_⟩
  · rw [Link.rxRd_openSocket, hsocket]
    rfl
  · rw [hsocket] at hsize ⊢
    exact hsize
  · rw [accounted, hcredit, harriving, hsocket]
    rfl

theorem stays_post (i : Fin 4) (req : NetRequest) (s : Chip) : Stays i s (s.post req) := fun hopen =>
  ⟨hopen, rfl, rfl, rfl, rfl, rfl, rfl, congrFun (post_credit s.worker req) i, (post_rest s.worker req).1⟩

theorem stays_setStatus (h : tcpOpen (s.sockets i).status) (status : Byte) : Stays i s (s.setStatus i status) := by
  intro _
  have hsocket : (s.setStatus i status).sockets i = { s.sockets i with status := status } := if_pos rfl
  exact ⟨h, by rw [hsocket], by rw [hsocket], by rw [hsocket], by rw [hsocket], by rw [hsocket], rfl, rfl, rfl⟩

theorem stays_enter (h : tcpOpen (s.sockets i).status) (req : NetRequest) (status : Byte) :
    Stays i s ((s.post req).setStatus i status) :=
  (stays_post i req s).trans (stays_setStatus (show tcpOpen ((s.post req).sockets i).status from h) status)

theorem status_close (how : NetMsg) (s : Chip) (bits : Byte) :
    ¬ tcpOpen (((((s.closeHost i how).setStatus i Sr.closed).setHeaderSize i).raiseIr i bits).sockets i).status := by
  rw [raiseIr_sockets, setHeaderSize_sockets, if_pos rfl, setStatus_sockets, if_pos rfl]
  exact (show ¬ tcpOpen Sr.closed by decide)

theorem stays_listenSocket (h : (s.sockets i).status = Sr.init) (bound : Bool) : Stays i s (s.listenSocket i bound) := by
  unfold listenSocket
  simp only
  split
  · exact stays_enter (.inl h) _ _
  · exact stays_closed (status_close _ s _)

theorem Safe.handleCommand_stays (h : Safe s) (hij : i ≠ j) (cmd : Byte) (bound : Bool) :
    Yields (s.handleCommand j cmd bound) (Stays i s) := by
  obtain ⟨t, ht, hspends⟩ := h.handleCommand_spends j cmd bound
  have hapart := ((h.handleCommand_apart hij cmd bound).of_eq ht).2
  exact ⟨t, ht, hapart.stays (hspends.credit i hij) hspends.events⟩

theorem Safe.handleCommand_fares (h : Safe s) {handled : List NetRequest} (hordered : Ordered handled s) (i : Fin 4)
    {cmd : Byte} (hcmd : cmd ≠ Cr.recv) (bound : Bool) : Yields (s.handleCommand i cmd bound) (Fares i s) := by
  unfold Chip.handleCommand
  simp only
  split
  · refine yields_some.2 (.opened ?_ (balanced_openSocket hordered i))
    rw [openSocket_sockets, if_pos rfl]
    exact Nat.succ_ne_self _
  split
  · rw [yields_some]
    split
    · next hlisten => exact .stays (stays_listenSocket hlisten.1 bound)
    · exact .stays (.refl i s)
  split
  · rw [yields_some]
    split
    · next hconnect => exact .stays (stays_enter (.inl hconnect.1) _ _)
    · exact .stays (.refl i s)
  split
  · rw [yields_some]
    split
    · exact .stays (stays_closed (status_close _ s _))
    · exact .stays (.refl i s)
  split
  · refine yields_some.2 (.stays (stays_closed ?_))
    have hclosed := status_close (i := i) .close s 0
    rw [raiseIr_sockets] at hclosed
    exact hclosed
  split
  · obtain ⟨t, ht, hapart⟩ := h.sendData_apart i
    refine ⟨t, ht, .stays ?_⟩
    rcases effect_sendData h i with hnone | ⟨_, _, packet, _, hsome⟩
    · cases ht.symm.trans hnone
      exact .refl i s
    · cases ht.symm.trans hsome
      refine hapart.2.stays ?_ ?_
      · rw [post_worker, post_credit, consume_worker]
      · rw [post_worker, (post_rest _ _).1, consume_worker]
  split
  · rw [yields_some]
    split
    · exact .stays (stays_raiseIr i i _ s)
    · exact .stays (.refl i s)
  · exact yields_some.2 (.stays (.refl i s))

theorem Owes.rsr_eq (h : Owes i taken n s) (hpow : (s.sockets i).receiveSize.isPowerOfTwo) :
    s.rsr i = (s.sockets i).snRxRsr - taken := by
  have hroom := h.level.room
  have hwr := h.level.wr
  unfold rsr
  rw [if_neg (Nat.ne_of_gt (Nat.pos_of_isPowerOfTwo hpow))]
  obtain ⟨p, hp⟩ := hpow
  rw [hp] at hroom hwr ⊢
  exact present_eq (by omega) hwr

theorem Owes.recount {worker : NetWorker} (h : Owes i taken n s) (hpow : (s.sockets i).receiveSize.isPowerOfTwo)
    (hevents : worker.events = s.worker.events) (hcredit : worker.rxCredit i = s.worker.rxCredit i + taken) :
    Owes i 0 n { s.updateRsr i with worker := worker } := by
  have hlevel := h.level
  have hstepped := hlevel.stepped
  have hroom := hlevel.room
  have htotal := h.total
  have hsocket : (s.updateRsr i).sockets i = { s.sockets i with snRxRsr := (s.sockets i).snRxRsr - taken } := by
    rw [updateRsr_sockets, if_pos rfl, h.rsr_eq hpow]
  refine ⟨⟨?_, Nat.zero_le _, ?_⟩, ?_⟩
  · simp only [hsocket]
    exact hlevel.wr
  · simp only [hsocket]
    omega
  · unfold accounted at htotal ⊢
    simp only [hsocket, hevents, hcredit]
    omega

theorem Balanced.receive (h : Balanced i taken n s) (hs : Safe s) : Yields (s.receive i) (Balanced i 0 n) := by
  have hsocket : (s.updateRsr i).sockets i = { s.sockets i with snRxRsr := s.rsr i } := by
    rw [updateRsr_sockets, if_pos rfl]
  have hflush {worker : NetWorker} (hevents : worker.events = s.worker.events)
      (hcredit : worker.rxCredit i = s.worker.rxCredit i + ((s.sockets i).snRxRsr - s.rsr i)) :
      Yields (({ s.updateRsr i with worker := worker } : Chip).flushRaise i) (Balanced i 0 n) := by
    have hbalanced : Balanced i 0 n { s.updateRsr i with worker := worker } := by
      intro hopen hpow
      simp only [hsocket] at hopen hpow
      have howes := h hopen hpow
      have hrsr := howes.rsr_eq hpow
      have hstepped := howes.level.stepped
      refine howes.recount hpow hevents (hcredit.trans ?_)
      omega
    exact (hbalanced.flushRaise ((hs.updateRsr i).withWorker worker) i).mono (fun _ ht => ht.2)
  unfold Chip.receive
  simp only [hsocket]
  split
  · exact hflush rfl (if_pos rfl)
  · exact hflush rfl (show s.worker.rxCredit i = _ by omega)

def Keeps (i : Fin 4) (address : Nat) (value : Byte) (s : Chip) : Prop :=
  tcpOpen (s.sockets i).status →
    address ≠ reg i 0x28 ∧ address ≠ reg i 0x29 ∧
      (address = 0x001A → (window rxBase memSize value i).2 = (s.sockets i).receiveSize)

instance (i : Fin 4) (address : Nat) (value : Byte) (s : Chip) : Decidable (Keeps i address value s) := by
  unfold Keeps
  infer_instance

theorem writeAt_recv (i : Fin 4) (bound : Bool) (s : Chip) :
    s.writeAt (reg i 0x01) Cr.recv bound = (do
      let t ← s.receive i
      some (t.setMem (reg i 0x01) 0)) := by
  rw [writeAt_reg]
  match i with | 0 | 1 | 2 | 3 => rfl

theorem stays_setSizes (h : tcpOpen (s.sockets i).status → (t.sockets i).receiveSize = (s.sockets i).receiveSize)
    (hsocket : ∃ base size base' size', t.sockets i =
      { s.sockets i with transmitBase := base, transmitSize := size, receiveBase := base', receiveSize := size' })
    (hrd : t.rxRd i = s.rxRd i) (hworker : t.worker = s.worker) : Stays i s t := by
  obtain ⟨base, size, base', size', hsocket⟩ := hsocket
  intro hopen
  rw [hsocket] at hopen
  exact ⟨hopen, by rw [hsocket], h hopen, by rw [hsocket], by rw [hsocket], by rw [hsocket], hrd, by rw [hworker],
    by rw [hworker]⟩

theorem rxRd_setMem {a : Index} (ha : a.val < 0x400) (i : Fin 4) (v : Byte) : (s.setMem a v).rxRd i = s.rxRd i := by
  have hne (r : Fin 0x100) : reg i r ≠ a := by
    rintro rfl
    simp only [reg] at ha
    omega
  unfold rxRd be16
  rw [setMem_memory, if_neg (hne _), setMem_memory, if_neg (hne _)]

theorem status_reset (s : Chip) (powerCycle : Bool) (i : Fin 4) :
    ((s.reset powerCycle).sockets i).status = Sr.closed := by
  unfold reset
  simp only
  refine List.foldlRecOn (motive := fun t : Chip => (t.sockets i).status = Sr.closed) _ _ ?_ (fun t ht j _ => ?_)
  · simp only [setTxSizes_sockets, setRxSizes_sockets, setMems_sockets, resetSockets_sockets]
  · exact ((quiet_resetRxtx t j).sockets i).1.trans ht

theorem closed_reset (s : Chip) (powerCycle : Bool) (i : Fin 4) :
    ¬ tcpOpen ((s.reset powerCycle).sockets i).status := by
  rw [status_reset]
  decide

theorem Safe.writeAt_fares (h : Safe s) {handled : List NetRequest} (hordered : Ordered handled s) {address : Nat}
    {value : Byte} {bound : Bool} (hkeeps : Keeps i address value s)
    (hrecv : ¬ (address = reg i 0x01 ∧ value = Cr.recv)) (ht : s.writeAt address value bound = some t) :
    Fares i s t := by
  have hset {u : Chip} (j : Fin 4) (v : Byte) : Stays i u (u.setMem (reg j 0x01) v) := stays_setReg (by decide) v
  cases writeAt_written ht with
  | command j u haddress hvalue hu ht =>
    rw [ht]
    by_cases hij : i = j
    · subst hij
      cases (h.handleCommand_fares hordered i (fun hcmd => hrecv ⟨haddress, hcmd⟩) bound).of_eq hu with
      | stays hstays => exact .stays (hstays.trans (hset i 0))
      | opened hgen hbalanced => exact .opened hgen (hbalanced.stays (hset i 0))
    · exact .stays (((h.handleCommand_stays hij value bound).of_eq hu).trans (hset j 0))
  | reset haddress hvalue ht =>
    rw [ht]
    exact .stays (stays_closed (closed_reset s false i))
  | mode haddress mode ht =>
    rw [ht]
    exact .stays (stays_setSizes (fun _ => rfl) ⟨_, _, _, _, rfl⟩ rfl rfl)
  | rxSizes haddress ht =>
    rw [ht]
    refine .stays (stays_setSizes (fun hopen => ?_) ⟨_, _, _, _, rfl⟩ (rxRd_setMem (by decide) i value) rfl)
    exact (hkeeps hopen).2.2 haddress
  | txSizes ht =>
    rw [ht]
    exact .stays (stays_setSizes (fun _ => rfl) ⟨_, _, _, _, rfl⟩ (rxRd_setMem (by decide) i value) rfl)
  | memory a v haddress ht =>
    rw [ht]
    refine .stays (fun hopen => ?_)
    obtain ⟨h28, h29, _⟩ := hkeeps hopen
    exact stays_setMem (fun heq => h28 (haddress.trans (congrArg Fin.val heq)))
      (fun heq => h29 (haddress.trans (congrArg Fin.val heq))) v hopen
  | nothing ht =>
    rw [ht]
    exact .stays (.refl i s)

theorem Balanced.writeAt (h : Balanced i taken 0 s) (hs : Safe s) {handled : List NetRequest}
    (hordered : Ordered handled s) {address : Nat} {value : Byte} {bound : Bool} (hkeeps : Keeps i address value s)
    (ht : s.writeAt address value bound = some t) :
    Balanced i (if Net.renewed s t i || (address == (reg i 0x01).val && value == Cr.recv) then 0 else taken) 0 t := by
  by_cases hrecv : address = reg i 0x01 ∧ value = Cr.recv
  · obtain ⟨rfl, rfl⟩ := hrecv
    rw [if_pos (by simp)]
    rw [writeAt_recv] at ht
    have hreceive : Yields (do let t ← s.receive i; some (t.setMem (reg i 0x01) 0)) (Balanced i 0 0) :=
      (h.receive hs).bind (fun u hu => yields_some.2 (hu.stays (stays_setReg (by decide) 0)))
    exact hreceive.of_eq ht
  · have hflag : (address == (reg i 0x01).val && value == Cr.recv) = false := by
      rw [← Bool.not_eq_true, Bool.and_eq_true, beq_iff_eq, beq_iff_eq]
      exact hrecv
    rw [hflag, Bool.or_false]
    cases hs.writeAt_fares hordered hkeeps hrecv ht with
    | stays hstays =>
      intro hopen
      rw [if_neg (by simp [Net.renewed, (hstays hopen).gen])]
      exact h.stays hstays hopen
    | opened hgen hbalanced =>
      rw [if_pos (by simp [Net.renewed, hgen])]
      exact hbalanced

theorem Balanced.stepOver {taken : Fin 4 → Nat} (h : Balanced i (taken i) 0 s) (hs : Safe s) {m : Nat}
    (hm : tcpOpen (s.sockets j).status → taken j + m ≤ (s.sockets j).snRxRsr) :
    Yields (s.stepOver j m) (Balanced i (if i = j then taken j + m else taken i) 0) := by
  rw [stepOver_eq, yields_some]
  split
  · next hij =>
    subst hij
    intro hopen hpow
    have howes := h hopen hpow
    have hle := hs.receiveSize_le i
    refine ⟨?_, howes.total⟩
    rw [rxRd_stepOver]
    exact howes.level.step (dvd_wrap hpow (by omega)) (hm hopen)
  · next hij =>
    have hne (r q : Fin 0x100) : reg j r ≠ reg i q := fun heq => hij (reg_inj.1 heq).1.symm
    exact h.stays ((stays_setMem (hne _ _) (hne _ _) _).trans (stays_setMem (hne _ _) (hne _ _) _))

end

end Chip

end GSSquared.Uthernet
