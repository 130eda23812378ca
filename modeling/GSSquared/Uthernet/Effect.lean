/-
What the chip does, as its worker sees it.
-/
import GSSquared.Uthernet.Receive
import GSSquared.Uthernet.Turn

set_option linter.all false

namespace GSSquared.Uthernet

open Bits Partial

namespace Chip

def posting (req : NetRequest) (q : List NetRequest) : List NetRequest := (Channel.send ringCapacity q req).getD q

theorem post_requests (w : NetWorker) (req : NetRequest) : (w.post req).1.requests = posting req w.requests := by
  unfold NetWorker.post posting
  cases Channel.send ringCapacity w.requests req <;> rfl

theorem post_rest (w : NetWorker) (req : NetRequest) :
    (w.post req).1.events = w.events ∧ (w.post req).1.socks = w.socks ∧ (w.post req).1.posted = w.posted := by
  unfold NetWorker.post
  cases Channel.send ringCapacity w.requests req <;> exact ⟨rfl, rfl, rfl⟩

theorem post_credit (w : NetWorker) (req : NetRequest) : (w.post req).1.rxCredit = w.rxCredit := by
  unfold NetWorker.post
  cases Channel.send ringCapacity w.requests req <;> rfl

structure Idle (s t : Chip) : Prop where
  events : t.worker.events = s.worker.events
  socks : t.worker.socks = s.worker.socks
  posted : t.worker.posted = s.worker.posted

structure Touch (i : Fin 4) (status : Byte) (gen : Nat) (requests : List NetRequest) (s t : Chip) : Prop where
  status : (t.sockets i).status = status
  gen : (t.sockets i).gen = gen
  others : ∀ j, j ≠ i → (t.sockets j).status = (s.sockets j).status ∧ (t.sockets j).gen = (s.sockets j).gen
  requests : t.worker.requests = requests
  idle : Idle s t

structure Quiet (s t : Chip) : Prop where
  sockets : ∀ j, (t.sockets j).status = (s.sockets j).status ∧ (t.sockets j).gen = (s.sockets j).gen
  requests : t.worker.requests = s.worker.requests
  idle : Idle s t

inductive Effect (i : Fin 4) (s t : Chip) : Prop
  | quiet (h : Quiet s t)
  | closed (how : NetMsg) (status : Byte) (hhow : how = .close ∨ how = .closeHost)
      (hstatus : status = Sr.closed ∨ status = Sr.ipRaw ∨ status = Sr.macRaw)
      (h : Touch i status ((s.sockets i).gen + 1)
        (posting { msg := how, sock := i, gen := (s.sockets i).gen + 1 } s.worker.requests) s t)
  | openedTcp
      (h : Touch i Sr.init ((s.sockets i).gen + 1)
        (posting { msg := .openTcp, sock := i, gen := (s.sockets i).gen + 1 }
          (posting { msg := .closeHost, sock := i, gen := (s.sockets i).gen + 1 } s.worker.requests)) s t)
  | openedUdp (port : Nat)
      (h : Touch i Sr.udp ((s.sockets i).gen + 1)
        (posting { msg := .openUdp, sock := i, gen := (s.sockets i).gen + 1, localPort := port }
          (posting { msg := .closeHost, sock := i, gen := (s.sockets i).gen + 1 } s.worker.requests)) s t)
  | connect (ip : Ip) (port : Nat) (hinit : (s.sockets i).status = Sr.init)
      (h : Touch i Sr.synSent (s.sockets i).gen
        (posting { msg := .connect, sock := i, gen := (s.sockets i).gen, destIp := ip, destPort := port }
          s.worker.requests) s t)
  | listen (hinit : (s.sockets i).status = Sr.init)
      (h : Touch i Sr.listen (s.sockets i).gen
        (s.worker.requests ++ [{ msg := .adoptListen, sock := i, gen := (s.sockets i).gen }]) s t)

section

variable {s t u : Chip} {i j : Fin 4}

theorem Idle.refl (s : Chip) : Idle s s := ⟨rfl, rfl, rfl⟩

theorem Idle.trans (h : Idle s t) (h' : Idle t u) : Idle s u :=
  ⟨h'.events.trans h.events, h'.socks.trans h.socks, h'.posted.trans h.posted⟩

theorem Quiet.refl (s : Chip) : Quiet s s := ⟨fun _ => ⟨rfl, rfl⟩, rfl, .refl s⟩

theorem Quiet.trans (h : Quiet s t) (h' : Quiet t u) : Quiet s u :=
  ⟨fun j => ⟨(h'.sockets j).1.trans (h.sockets j).1, (h'.sockets j).2.trans (h.sockets j).2⟩,
    h'.requests.trans h.requests, h.idle.trans h'.idle⟩

theorem Touch.quiet {status : Byte} {gen : Nat} {requests : List NetRequest} (h : Touch i status gen requests s t)
    (h' : Quiet t u) : Touch i status gen requests s u :=
  ⟨(h'.sockets i).1.trans h.status, (h'.sockets i).2.trans h.gen,
    fun j hj => ⟨(h'.sockets j).1.trans (h.others j hj).1, (h'.sockets j).2.trans (h.others j hj).2⟩,
    h'.requests.trans h.requests, h.idle.trans h'.idle⟩

theorem quiet_of_eq (hs : t.sockets = s.sockets) (hw : t.worker = s.worker) : Quiet s t :=
  ⟨fun j => by rw [hs]; exact ⟨rfl, rfl⟩, by rw [hw], by rw [hw], by rw [hw], by rw [hw]⟩

variable (s : Chip)

theorem quiet_setMem (a : Index) (v : Byte) : Quiet s (s.setMem a v) := quiet_of_eq rfl rfl

theorem quiet_raiseIr (i : Fin 4) (bits : Byte) : Quiet s (s.raiseIr i bits) :=
  quiet_of_eq (s.raiseIr_sockets i bits) (s.raiseIr_worker i bits)

theorem quiet_setPeer (i : Fin 4) (ip : Ip) (port : Nat) : Quiet s (s.setPeer i ip port) :=
  quiet_of_eq (s.setPeer_sockets i ip port) (s.setPeer_worker i ip port)

theorem quiet_consume (i : Fin 4) : Quiet s (s.consume i) :=
  quiet_of_eq (s.consume_sockets i) (s.consume_worker i)

theorem quiet_setHeaderSize (i : Fin 4) : Quiet s (s.setHeaderSize i) := by
  refine ⟨fun j => ?_, rfl, rfl, rfl, rfl⟩
  rw [setHeaderSize_sockets]
  split
  · next hj => rw [hj]; exact ⟨rfl, rfl⟩
  · exact ⟨rfl, rfl⟩

theorem quiet_resetRxtx (i : Fin 4) : Quiet s (s.resetRxtx i) := by
  refine ⟨fun j => ?_, by rw [resetRxtx_worker], by rw [resetRxtx_worker], by rw [resetRxtx_worker],
    by rw [resetRxtx_worker]⟩
  rw [resetRxtx_sockets]
  split
  · next hj => rw [hj]; exact ⟨rfl, rfl⟩
  · exact ⟨rfl, rfl⟩

theorem quiet_updateRsr (i : Fin 4) : Quiet s (s.updateRsr i) := by
  refine ⟨fun j => ?_, rfl, rfl, rfl, rfl⟩
  rw [updateRsr_sockets]
  split
  · next hj => rw [hj]; exact ⟨rfl, rfl⟩
  · exact ⟨rfl, rfl⟩

theorem quiet_credit (credit : Fin 4 → Nat) :
    Quiet s { s with worker := { s.worker with rxCredit := credit } } := ⟨fun _ => ⟨rfl, rfl⟩, rfl, rfl, rfl, rfl⟩

theorem Fed.quiet (h : Fed i s t) : Quiet s t := by
  obtain ⟨wr, rsr, pending, hown⟩ := h.own
  refine ⟨fun j => ?_, by rw [h.worker], by rw [h.worker], by rw [h.worker], by rw [h.worker]⟩
  by_cases hj : j = i
  · rw [hj, hown]
    exact ⟨rfl, rfl⟩
  · rw [h.others j hj]
    exact ⟨rfl, rfl⟩

theorem touch_post (s : Chip) (i : Fin 4) (req : NetRequest) (status : Byte) :
    Touch i status (s.sockets i).gen (posting req s.worker.requests) s ((s.post req).setStatus i status) where
  status := by rw [setStatus_sockets, if_pos rfl]
  gen := by rw [setStatus_sockets, if_pos rfl, post_sockets]
  others j hj := by rw [setStatus_sockets, if_neg hj]; exact ⟨rfl, rfl⟩
  requests := post_requests s.worker req
  idle := ⟨(post_rest s.worker req).1, (post_rest s.worker req).2.1, (post_rest s.worker req).2.2⟩

theorem touch_closeHost (s : Chip) (i : Fin 4) (how : NetMsg) (status : Byte) :
    Touch i status ((s.sockets i).gen + 1)
      (posting { msg := how, sock := i, gen := (s.sockets i).gen + 1 } s.worker.requests) s
      ((s.closeHost i how).setStatus i status) where
  status := by rw [setStatus_sockets, if_pos rfl]
  gen := by rw [setStatus_sockets, if_pos rfl, closeHost_sockets, if_pos rfl]
  others j hj := by rw [setStatus_sockets, if_neg hj, closeHost_sockets, if_neg hj]; exact ⟨rfl, rfl⟩
  requests := post_requests s.worker _
  idle := ⟨(post_rest s.worker _).1, (post_rest s.worker _).2.1, (post_rest s.worker _).2.2⟩

theorem effect_openSocket (s : Chip) (i : Fin 4) : Effect i s (s.openSocket i) := by
  unfold openSocket
  simp only
  have hquiet (u : Chip) (credit : Nat) : Quiet u
      { (u.setHeaderSize i).resetRxtx i with
        worker := ((u.setHeaderSize i).resetRxtx i).worker.setRxCredit i credit } :=
    ((quiet_setHeaderSize u i).trans (quiet_resetRxtx _ i)).trans (quiet_credit _ _)
  have hgen : ((s.closeHost i .closeHost).sockets i).gen = (s.sockets i).gen + 1 := by
    rw [closeHost_sockets, if_pos rfl]
  have hclosed := touch_closeHost s i .closeHost
  have hposted (req : NetRequest) (status : Byte) :
      Touch i status ((s.sockets i).gen + 1)
        (posting req (posting { msg := .closeHost, sock := i, gen := (s.sockets i).gen + 1 } s.worker.requests)) s
        (((s.closeHost i .closeHost).post req).setStatus i status) := by
    have hreq := (hclosed status).requests
    have hidle : Idle s (s.closeHost i .closeHost) :=
      ⟨(post_rest s.worker _).1, (post_rest s.worker _).2.1, (post_rest s.worker _).2.2⟩
    have hpost := touch_post (s.closeHost i .closeHost) i req status
    rw [hgen] at hpost
    refine ⟨hpost.status, hpost.gen, fun j hj => ?_, ?_, hidle.trans hpost.idle⟩
    · have hothers := (hclosed status).others j hj
      rw [setStatus_sockets, if_neg hj] at hothers ⊢
      exact hothers
    · rw [hpost.requests]
      exact congrArg (posting req) hreq
  split
  · next htcp =>
    have hstatus : openStatus i (s.protocol i) = Sr.init := by rw [htcp]; rfl
    rw [hgen, hstatus]
    exact .openedTcp ((hposted _ _).quiet (hquiet _ _))
  · next htcp =>
    split
    · next hudp =>
      have hstatus : openStatus i (s.protocol i) = Sr.udp := by rw [hudp]; rfl
      rw [hgen, hstatus]
      exact .openedUdp _ ((hposted _ _).quiet (hquiet _ _))
    · next hudp =>
      refine .closed .closeHost (openStatus i (s.protocol i)) (.inr rfl) ?_ ((hclosed _).quiet (hquiet _ _))
      unfold openStatus
      rw [if_neg htcp, if_neg hudp]
      split
      · exact .inr (.inl rfl)
      · split
        · split
          · exact .inr (.inr rfl)
          · exact .inl rfl
        · exact .inl rfl

theorem effect_listenSocket (s : Chip) (i : Fin 4) (bound : Bool) (hinit : (s.sockets i).status = Sr.init) :
    Effect i s (s.listenSocket i bound) := by
  unfold listenSocket NetWorker.post
  simp only
  cases hsend : Channel.send ringCapacity s.worker.requests
      { msg := .adoptListen, sock := i, gen := (s.sockets i).gen } with
  | none =>
    rw [Bool.and_false, if_neg (by decide)]
    exact .closed .closeHost Sr.closed (.inr rfl) (.inl rfl)
      ((touch_closeHost s i .closeHost Sr.closed).quiet ((quiet_setHeaderSize _ i).trans (quiet_raiseIr _ i _)))
  | some requests =>
    cases bound with
    | false =>
      rw [Bool.false_and, if_neg (by decide)]
      exact .closed .closeHost Sr.closed (.inr rfl) (.inl rfl)
        ((touch_closeHost s i .closeHost Sr.closed).quiet ((quiet_setHeaderSize _ i).trans (quiet_raiseIr _ i _)))
    | true =>
      have hsocket (j : Fin 4) : ((({ s with worker := { s.worker with requests := requests } } : Chip).setStatus i
          Sr.listen).sockets j) = if j = i then { s.sockets i with status := Sr.listen } else s.sockets j := rfl
      rw [Bool.true_and, if_pos rfl]
      refine .listen hinit ⟨?_, ?_, fun j hj => ?_, Channel.send_eq_some hsend, rfl, rfl, rfl⟩
      · rw [hsocket, if_pos rfl]
      · rw [hsocket, if_pos rfl]
      · rw [hsocket, if_neg hj]
        exact ⟨rfl, rfl⟩

variable {s}

theorem effect_sendData (h : Safe s) (i : Fin 4) :
    s.sendData i = some s ∨
      sendable (s.sockets i).status = true ∧ s.txDataSize i ≠ 0 ∧
        ∃ packet, s.gather i = some packet ∧
          s.sendData i = some ((s.consume i).post ((s.consume i).sendRequest i packet)) := by
  unfold sendData
  by_cases hnone : sendable (s.sockets i).status = false ∨ s.txDataSize i = 0
  · exact .inl (if_pos hnone)
  · rw [if_neg hnone, h.gather_eq i]
    rw [not_or, Bool.not_eq_false] at hnone
    exact .inr ⟨hnone.1, hnone.2, _, rfl, rfl⟩

theorem effect_command (h : Safe s) (i : Fin 4) {cmd : Byte} (hcmd : cmd ≠ Cr.send) (bound : Bool) :
    Yields (s.handleCommand i cmd bound) (fun t => Safe t ∧ Effect i s t) := by
  unfold Chip.handleCommand
  simp only
  split
  · exact yields_some.2 ⟨h.openSocket i, effect_openSocket s i⟩
  split
  · rw [yields_some]
    split
    · next hlisten => exact ⟨h.listenSocket i bound, effect_listenSocket s i bound hlisten.1⟩
    · exact ⟨h, .quiet (.refl s)⟩
  split
  · rw [yields_some]
    split
    · next hconnect => exact ⟨(h.post _).setStatus i _, .connect _ _ hconnect.1 (touch_post s i _ _)⟩
    · exact ⟨h, .quiet (.refl s)⟩
  split
  · rw [yields_some]
    split
    · refine ⟨(((h.closeHost i _).setStatus i _).setHeaderSize i).raiseIr i _, ?_⟩
      exact .closed .close Sr.closed (.inl rfl) (.inl rfl)
        ((touch_closeHost s i .close Sr.closed).quiet ((quiet_setHeaderSize _ i).trans (quiet_raiseIr _ i _)))
    · exact ⟨h, .quiet (.refl s)⟩
  split
  · refine yields_some.2 ⟨((h.closeHost i _).setStatus i _).setHeaderSize i, ?_⟩
    exact .closed .close Sr.closed (.inl rfl) (.inl rfl)
      ((touch_closeHost s i .close Sr.closed).quiet (quiet_setHeaderSize _ i))
  split
  · rw [yields_some]
    split
    · exact ⟨h.raiseIr i _, .quiet (quiet_raiseIr s i _)⟩
    · exact ⟨h, .quiet (.refl s)⟩
  split
  · unfold Chip.receive
    simp only
    have hcount := h.updateRsr i
    split
    · refine ((hcount.withWorker _).flushRaise i).mono (fun t ht => ⟨ht.1, ?_⟩)
      exact .quiet (((quiet_updateRsr s i).trans (quiet_credit _ _)).trans ht.2.quiet)
    · refine (hcount.flushRaise i).mono (fun t ht => ⟨ht.1, ?_⟩)
      exact .quiet ((quiet_updateRsr s i).trans ht.2.quiet)
  · exact yields_some.2 ⟨h, .quiet (.refl s)⟩

end

inductive Written (address : Nat) (value : Byte) (bound : Bool) (s t : Chip) : Prop
  | command (i : Fin 4) (u : Chip) (haddress : address = reg i 0x01) (hvalue : value ≠ 0)
      (hu : s.handleCommand i value bound = some u) (ht : t = u.setMem (reg i 0x01) 0)
  | reset (haddress : address = 0x0000) (hvalue : value &&& 0x80 ≠ 0) (ht : t = s.reset false)
  | mode (haddress : address = 0x0000) (mode : Byte) (ht : t = { s with mode := mode })
  | rxSizes (haddress : address = 0x001A) (ht : t = s.setRxSizes value)
  | txSizes (ht : t = s.setTxSizes value)
  | memory (a : Index) (v : Byte) (haddress : address = a.val) (ht : t = s.setMem a v)
  | nothing (ht : t = s)

section

variable {s t : Chip} {address : Nat} {value : Byte} {bound : Bool}

theorem writeSocketReg_written (ha : 0x400 ≤ address ∧ address ≤ 0x7FF)
    (h : s.writeSocketReg address ha value bound = some t) : Written address value bound s t := by
  unfold writeSocketReg at h
  simp only at h
  split at h
  · next hloc =>
    have hreg : address = reg (socketOf address ha) 0x01 := by
      simp only [reg, socketOf]
      omega
    by_cases hvalue : value ≠ 0
    · rw [if_pos hvalue] at h
      cases hu : s.handleCommand (socketOf address ha) value bound with
      | none =>
        rw [hu] at h
        cases h
      | some u =>
        rw [hu] at h
        refine .command _ u hreg hvalue hu ((Option.some.inj h).symm.trans ?_)
        exact congrArg (fun a => u.setMem a 0) (Fin.ext hreg)
    · rw [if_neg hvalue] at h
      exact .memory _ _ rfl (Option.some.inj h).symm
  · exact .memory _ _ rfl (Option.some.inj h).symm
  all_goals first | exact .nothing (Option.some.inj h).symm | exact .memory _ _ rfl (Option.some.inj h).symm

theorem writeAt_written (h : s.writeAt address value bound = some t) : Written address value bound s t := by
  unfold writeAt at h
  split at h
  · next hmode =>
    have h := (Option.some.inj h).symm
    unfold writeMode at h
    split at h
    · next hbit => exact .reset hmode hbit h
    · exact .mode hmode _ h
  split at h
  · next hir => exact .memory _ _ hir (Option.some.inj h).symm
  split at h
  · next hrmsr => exact .rxSizes hrmsr (Option.some.inj h).symm
  split at h
  · exact .txSizes (Option.some.inj h).symm
  split at h
  · exact .memory _ _ rfl (Option.some.inj h).symm
  split at h
  · exact writeSocketReg_written _ h
  split at h
  · exact .memory _ _ rfl (Option.some.inj h).symm
  · exact .nothing (Option.some.inj h).symm

end

def statusAfter (ev : NetEvent) : Byte :=
  match ev.cause with
  | .connected => Sr.established
  | .remoteClosed => Sr.closeWait
  | .reset | .failed => Sr.closed
  | .none => ev.status

def Reaches (i : Fin 4) (ev : NetEvent) (s : Chip) : Prop :=
  ev.evt = .status ∧ ev.sock = i.val ∧ ev.gen = (s.sockets i).gen

section

variable {s t : Chip} {i j : Fin 4}

theorem touch_applyStatus (s : Chip) (i : Fin 4) (ev : NetEvent) :
    Touch i (statusAfter ev) (s.sockets i).gen s.worker.requests s (s.applyStatus i ev) := by
  have hset (status : Byte) : Touch i status (s.sockets i).gen s.worker.requests s (s.setStatus i status) := by
    refine ⟨?_, ?_, fun j hj => ?_, rfl, rfl, rfl, rfl⟩
    · rw [setStatus_sockets, if_pos rfl]
    · rw [setStatus_sockets, if_pos rfl]
    · rw [setStatus_sockets, if_neg hj]
      exact ⟨rfl, rfl⟩
  have hdrop : Touch i Sr.closed (s.sockets i).gen s.worker.requests s (s.dropHost i) := by
    refine ⟨?_, ?_, fun j hj => ?_, rfl, rfl, rfl, rfl⟩
    · rw [dropHost_sockets, if_pos rfl]
    · rw [dropHost_sockets, if_pos rfl]
    · rw [dropHost_sockets, if_neg hj]
      exact ⟨rfl, rfl⟩
  unfold applyStatus statusAfter
  cases ev.cause with
  | connected =>
    exact (hset _).quiet (((quiet_setPeer _ i _ _).trans (quiet_setHeaderSize _ i)).trans (quiet_raiseIr _ i _))
  | remoteClosed => exact (hset _).quiet ((quiet_setHeaderSize _ i).trans (quiet_raiseIr _ i _))
  | reset => exact hdrop.quiet ((quiet_setHeaderSize _ i).trans (quiet_raiseIr _ i _))
  | failed => exact hdrop.quiet ((quiet_setHeaderSize _ i).trans (quiet_raiseIr _ i _))
  | none => exact (hset _).quiet (quiet_setHeaderSize _ i)

theorem quiet_deliver (h : Safe s) {ev : NetEvent} (hev : ev.evt ≠ .status) :
    Yields (s.deliver i ev) (Quiet s) := by
  unfold deliver
  cases hevt : ev.evt with
  | status => exact absurd hevt hev
  | none => exact yields_some.2 (.refl s)
  | sendDone => exact yields_some.2 (quiet_raiseIr s i _)
  | rxUdp => exact (h.storePacket i _ _).mono (fun t ht => ht.2.quiet)
  | ipRawRx => exact (h.storePacket i _ _).mono (fun t ht => ht.2.quiet)
  | macRawRx =>
    refine (h.ingestMacraw ev.payload).mono (fun t ht => ?_)
    obtain ⟨_, j, hfed⟩ := ht
    exact hfed.quiet
  | rxTcp =>
    refine (h.ingestTcp i ev.payload).bind (fun t ht => ?_)
    rw [yields_some]
    split
    · exact ht.2.quiet.trans (quiet_raiseIr t i _)
    · exact ht.2.quiet

theorem event_effect (h : Safe s) (ev : NetEvent) :
    Yields (s.applyEvent ev) (fun t => Safe t ∧
      ((∃ i, Reaches i ev s ∧ Touch i (statusAfter ev) (s.sockets i).gen s.worker.requests s t) ∨
        (∀ i, ¬ Reaches i ev s) ∧ Quiet s t)) := by
  obtain ⟨t, ht, hsafe⟩ := h.applyEvent ev
  refine ⟨t, ht, hsafe, ?_⟩
  by_cases hsock : ev.sock < 4
  · obtain ⟨i, hi⟩ : ∃ i : Fin 4, ev.sock = i.val := ⟨⟨ev.sock, hsock⟩, rfl⟩
    by_cases hstale : ev.evt ≠ .macRawRx ∧ ev.gen ≠ (s.sockets i).gen
    · rw [s.applyEvent_of_stale i hi hstale] at ht
      refine .inr ⟨fun j hj => hstale.2 ?_, Option.some.inj ht ▸ .refl s⟩
      rw [show i = j from Fin.ext (hi.symm.trans hj.2.1)]
      exact hj.2.2
    · rw [s.applyEvent_of_live i hi hstale] at ht
      by_cases hev : ev.evt = .status
      · have hgen : ev.gen = (s.sockets i).gen := by
          by_contra hne
          exact hstale ⟨by rw [hev]; nofun, hne⟩
        rw [deliver, hev] at ht
        exact .inl ⟨i, ⟨hev, hi, hgen⟩, Option.some.inj ht ▸ touch_applyStatus s i ev⟩
      · exact .inr ⟨fun j hj => hev hj.1, (quiet_deliver h hev).of_eq ht⟩
  · rw [s.applyEvent_of_ge hsock] at ht
    exact .inr ⟨fun j hj => hsock (hj.2.1 ▸ j.isLt), Option.some.inj ht ▸ .refl s⟩

theorem quiet_flushAll (h : Safe s) : Yields s.flushAll (fun t => Safe t ∧ Quiet s t) := by
  refine yields_foldlM (fun t j _ ht => ?_) ⟨h, .refl s⟩
  split
  · exact yields_some.2 ht
  · exact (ht.1.flushRaise j).mono (fun u hu => ⟨hu.1, ht.2.trans hu.2.quiet⟩)

theorem effect_resetSocket (s : Chip) (i : Fin 4) : Effect i s (s.resetSocket i) := by
  have hsocket := s.resetSocket_sockets i
  have hgen : ((s.setSocket i { gen := (s.sockets i).gen }).sockets i).gen = (s.sockets i).gen := by
    rw [setSocket_sockets, if_pos rfl]
  have hworker : (s.resetSocket i).worker =
      (s.worker.post { msg := .closeHost, sock := i, gen := (s.sockets i).gen + 1 }).1.setRxCredit i 0 := by
    rw [resetSocket, setMems_worker, closeHost_worker, hgen, setSocket_worker]
  refine .closed .closeHost Sr.closed (.inr rfl) (.inl rfl) ⟨?_, ?_, fun j hj => ?_, ?_, ?_⟩
  · rw [hsocket, if_pos rfl]
  · rw [hsocket, if_pos rfl]
  · rw [hsocket, if_neg hj]
    exact ⟨rfl, rfl⟩
  · rw [hworker]
    exact post_requests s.worker _
  · have hrest := post_rest s.worker { msg := .closeHost, sock := i, gen := (s.sockets i).gen + 1 }
    exact ⟨by rw [hworker]; exact hrest.1, by rw [hworker]; exact hrest.2.1, by rw [hworker]; exact hrest.2.2⟩

end

end Chip

end GSSquared.Uthernet
