/-
The windows of the sockets, and what is stored in them.
-/
import GSSquared.Uthernet.Fields

set_option linter.all false

namespace GSSquared.Uthernet

open Bits Partial

namespace Chip

section

variable {last n value base : Nat}

theorem length_windowLoop : (windowLoop last n value base).length = n := by
  induction n generalizing value base with
  | zero => rfl
  | succ n ih => rw [windowLoop, List.length_cons, ih]

theorem windowLoop_inside (hbase : base ≤ last) :
    ∀ w ∈ windowLoop last n value base, base ≤ w.1 ∧ w.1 + w.2 ≤ last := by
  induction n generalizing value base with
  | zero => intro w hw; cases hw
  | succ n ih =>
    intro w hw
    rw [windowLoop] at hw
    have hnext : base ≤ min (base + 2 ^ (10 + value % 4)) last := Nat.le_min.2 ⟨Nat.le_add_right _ _, hbase⟩
    have hlast := Nat.min_le_right (base + 2 ^ (10 + value % 4)) last
    rcases List.mem_cons.1 hw with rfl | hw
    · exact ⟨Nat.le_refl _, (Nat.add_sub_cancel' hnext).trans_le hlast⟩
    · have hrest := ih (Nat.min_le_right (base + 2 ^ (10 + value % 4)) last) w hw
      omega

theorem windowLoop_pairwise (hbase : base ≤ last) :
    (windowLoop last n value base).Pairwise (fun v w => v.1 + v.2 ≤ w.1) := by
  induction n generalizing value base with
  | zero => exact .nil
  | succ n ih =>
    rw [windowLoop]
    refine .cons (fun w hw => ?_) (ih (Nat.min_le_right _ _))
    have hnext : base ≤ min (base + 2 ^ (10 + value % 4)) last := Nat.le_min.2 ⟨Nat.le_add_right _ _, hbase⟩
    exact (Nat.add_sub_cancel' hnext).trans_le (windowLoop_inside (Nat.min_le_right _ _) w hw).1

end

section

variable {first last : Nat} (value : Byte)

theorem window_eq (i : Fin 4) :
    window first last value i =
      (windowLoop last 4 value.toNat first).get (i.cast length_windowLoop.symm) := by
  have hi : i.val < (windowLoop last 4 value.toNat first).length := i.isLt.trans_eq length_windowLoop.symm
  rw [window, List.getD_eq_getElem?_getD, List.getElem?_eq_getElem hi]
  rfl

theorem window_inside (h : first ≤ last) (i : Fin 4) :
    first ≤ (window first last value i).1 ∧
      (window first last value i).1 + (window first last value i).2 ≤ last := by
  rw [window_eq]
  exact windowLoop_inside h _ (List.get_mem _ _)

theorem window_before (h : first ≤ last) {i j : Fin 4} (hij : i < j) :
    (window first last value i).1 + (window first last value i).2 ≤ (window first last value j).1 := by
  rw [window_eq, window_eq]
  exact List.pairwise_iff_get.1 (windowLoop_pairwise h) _ _ hij

end

end Chip

/-- The byte lies in the window that it was stored through, and the window in the pool. -/
structure Store.Inside (st : Store) : Prop where
  above : st.base ≤ st.address
  below : st.address < st.base + st.size
  first : rxBase ≤ st.base
  last : st.base + st.size ≤ memSize

/-- The windows are the same, and the write offset too unless it has gone back to the start. -/
structure SocketState.Kept (st st' : SocketState) : Prop where
  transmitBase : st'.transmitBase = st.transmitBase
  transmitSize : st'.transmitSize = st.transmitSize
  receiveBase : st'.receiveBase = st.receiveBase
  receiveSize : st'.receiveSize = st.receiveSize
  snRxWr : st'.snRxWr = st.snRxWr ∨ st'.snRxWr = 0

theorem SocketState.Kept.refl (st : SocketState) : st.Kept st := ⟨rfl, rfl, rfl, rfl, .inl rfl⟩

namespace Chip

def Below (size : Nat) (st : SocketState) : Prop := size = 0 ∨ st.snRxWr < size

instance (size : Nat) (st : SocketState) : Decidable (Below size st) :=
  inferInstanceAs (Decidable (size = 0 ∨ st.snRxWr < size))

structure Safe (s : Chip) : Prop where
  rxWindow : ∃ value, ∀ i,
    (s.sockets i).receiveBase = (window rxBase memSize value i).1 ∧
      (s.sockets i).receiveSize = (window rxBase memSize value i).2
  txWindow : ∃ value, ∀ i,
    (s.sockets i).transmitBase = (window txBase rxBase value i).1 ∧
      (s.sockets i).transmitSize = (window txBase rxBase value i).2
  below : ∀ i, Below (s.sockets i).receiveSize (s.sockets i)
  stores : ∀ st ∈ s.stores, st.Inside

section

variable {s t : Chip}

theorem Safe.of_kept (h : Safe s) (hs : ∀ i, (s.sockets i).Kept (t.sockets i)) (hstores : t.stores = s.stores) :
    Safe t := by
  refine ⟨?_, ?_, fun i => ?_, hstores ▸ h.stores⟩
  · obtain ⟨value, hvalue⟩ := h.rxWindow
    exact ⟨value, fun i => by rw [(hs i).receiveBase, (hs i).receiveSize]; exact hvalue i⟩
  · obtain ⟨value, hvalue⟩ := h.txWindow
    exact ⟨value, fun i => by rw [(hs i).transmitBase, (hs i).transmitSize]; exact hvalue i⟩
  · have hbelow := h.below i
    have hwr := (hs i).snRxWr
    unfold Below at hbelow ⊢
    rw [(hs i).receiveSize]
    omega

theorem Safe.inside (h : Safe s) (i : Fin 4) :
    rxBase ≤ (s.sockets i).receiveBase ∧ (s.sockets i).receiveBase + (s.sockets i).receiveSize ≤ memSize := by
  obtain ⟨value, hvalue⟩ := h.rxWindow
  rw [(hvalue i).1, (hvalue i).2]
  exact window_inside value (by decide) i

theorem Safe.transmit_inside (h : Safe s) (i : Fin 4) :
    (s.sockets i).transmitBase + (s.sockets i).transmitSize ≤ rxBase := by
  obtain ⟨value, hvalue⟩ := h.txWindow
  rw [(hvalue i).1, (hvalue i).2]
  exact (window_inside value (by decide) i).2

theorem Safe.disjoint (h : Safe s) {i j : Fin 4} (hij : i ≠ j) :
    (s.sockets i).receiveBase + (s.sockets i).receiveSize ≤ (s.sockets j).receiveBase ∨
      (s.sockets j).receiveBase + (s.sockets j).receiveSize ≤ (s.sockets i).receiveBase := by
  obtain ⟨value, hvalue⟩ := h.rxWindow
  rw [(hvalue i).1, (hvalue i).2, (hvalue j).1, (hvalue j).2]
  rcases Nat.lt_or_gt_of_ne (Fin.val_ne_of_ne hij) with hlt | hgt
  · exact .inl (window_before value (by decide) hlt)
  · exact .inr (window_before value (by decide) hgt)

end

section

variable {s t : Chip} {i : Fin 4}

theorem Safe.of_eq (h : Safe s) (hs : t.sockets = s.sockets) (hstores : t.stores = s.stores) : Safe t :=
  h.of_kept (fun j => by rw [hs]; exact .refl _) hstores

theorem Safe.of_kept_at (h : Safe s) {st : SocketState} (hs : ∀ j, t.sockets j = if j = i then st else s.sockets j)
    (hst : (s.sockets i).Kept st) (hstores : t.stores = s.stores) : Safe t := by
  refine h.of_kept (fun j => ?_) hstores
  rw [hs j]
  by_cases hj : j = i
  · rw [if_pos hj, hj]
    exact hst
  · rw [if_neg hj]
    exact .refl _

theorem Safe.withWorker (h : Safe s) (worker : NetWorker) : Safe { s with worker := worker } := h.of_eq rfl rfl

theorem Safe.setMem (h : Safe s) (a : Index) (v : Byte) : Safe (s.setMem a v) := h.of_eq rfl rfl

theorem Safe.setMems (h : Safe s) (l : List (Index × Byte)) : Safe (s.setMems l) :=
  h.of_eq (s.setMems_sockets l) (s.setMems_stores l)

theorem Safe.raiseIr (h : Safe s) (i : Fin 4) (bits : Byte) : Safe (s.raiseIr i bits) :=
  h.of_eq (s.raiseIr_sockets i bits) (s.raiseIr_stores i bits)

theorem Safe.setPeer (h : Safe s) (i : Fin 4) (ip : Ip) (port : Nat) : Safe (s.setPeer i ip port) :=
  h.of_eq (s.setPeer_sockets i ip port) (s.setPeer_stores i ip port)

theorem Safe.post (h : Safe s) (req : NetRequest) : Safe (s.post req) := h.of_eq rfl rfl

theorem Safe.setStatus (h : Safe s) (i : Fin 4) (status : Byte) : Safe (s.setStatus i status) :=
  h.of_kept_at (s.setStatus_sockets i · status) ⟨rfl, rfl, rfl, rfl, .inl rfl⟩ rfl

theorem Safe.setHeaderSize (h : Safe s) (i : Fin 4) : Safe (s.setHeaderSize i) :=
  h.of_kept_at (s.setHeaderSize_sockets i) ⟨rfl, rfl, rfl, rfl, .inl rfl⟩ rfl

theorem Safe.resetRxtx (h : Safe s) (i : Fin 4) : Safe (s.resetRxtx i) :=
  h.of_kept_at (s.resetRxtx_sockets i) ⟨rfl, rfl, rfl, rfl, .inr rfl⟩ (s.resetRxtx_stores i)

theorem Safe.updateRsr (h : Safe s) (i : Fin 4) : Safe (s.updateRsr i) :=
  h.of_kept_at (s.updateRsr_sockets i) ⟨rfl, rfl, rfl, rfl, .inl rfl⟩ rfl

theorem Safe.setRxPending (h : Safe s) (i : Fin 4) (pending : List Byte) :
    Safe (s.setSocket i { s.sockets i with rxPending := pending }) :=
  h.of_kept_at (s.setSocket_sockets i · _) ⟨rfl, rfl, rfl, rfl, .inl rfl⟩ rfl

theorem Safe.dropHost (h : Safe s) (i : Fin 4) : Safe (s.dropHost i) :=
  h.of_kept_at (s.dropHost_sockets i) ⟨rfl, rfl, rfl, rfl, .inl rfl⟩ rfl

theorem Safe.closeHost (h : Safe s) (i : Fin 4) (how : NetMsg) : Safe (s.closeHost i how) :=
  h.of_kept_at (s.closeHost_sockets i · how) ⟨rfl, rfl, rfl, rfl, .inl rfl⟩ rfl

theorem Safe.openSocket (h : Safe s) (i : Fin 4) : Safe (s.openSocket i) := by
  unfold Chip.openSocket
  simp only
  have hclosed := h.closeHost i .closeHost
  refine ((Safe.resetRxtx ?_ i).withWorker _)
  refine Safe.setHeaderSize (Safe.setStatus ?_ i _) i
  split
  · exact hclosed.post _
  · split
    · exact hclosed.post _
    · exact hclosed

theorem Safe.listenSocket (h : Safe s) (i : Fin 4) (bound : Bool) : Safe (s.listenSocket i bound) := by
  unfold Chip.listenSocket
  simp only
  split
  · exact (h.withWorker _).setStatus i _
  · exact (((h.closeHost i _).setStatus i _).setHeaderSize i).raiseIr i _

theorem Safe.applyStatus (h : Safe s) (i : Fin 4) (ev : NetEvent) : Safe (s.applyStatus i ev) := by
  unfold Chip.applyStatus
  split
  · exact (((h.setStatus i _).setPeer i _ _).setHeaderSize i).raiseIr i _
  · exact ((h.setStatus i _).setHeaderSize i).raiseIr i _
  · exact ((h.dropHost i).setHeaderSize i).raiseIr i _
  · exact ((h.dropHost i).setHeaderSize i).raiseIr i _
  · exact (h.setStatus i _).setHeaderSize i

end

def stored (i : Fin 4) (s : Chip) : List Byte := (s.stores.filter (fun st => st.sock = i)).map (fun st => st.value)

structure Fed (i : Fin 4) (s t : Chip) : Prop where
  others : ∀ j, j ≠ i → t.sockets j = s.sockets j
  own : ∃ wr rsr pending,
    t.sockets i = { s.sockets i with snRxWr := wr, snRxRsr := rsr, rxPending := pending }
  stored : ∀ j, j ≠ i → t.stored j = s.stored j
  worker : t.worker = s.worker
  mode : t.mode = s.mode
  dataAddr : t.dataAddr = s.dataAddr
  memory : ∀ a : Index, a.val < (s.sockets i).receiveBase ∨
      (s.sockets i).receiveBase + (s.sockets i).receiveSize ≤ a.val → a ≠ reg i 0x02 → t.memory a = s.memory a

section

variable {s t u : Chip} {i : Fin 4}

theorem Fed.refl (i : Fin 4) (s : Chip) : Fed i s s :=
  ⟨fun _ _ => rfl, ⟨_, _, _, rfl⟩, fun _ _ => rfl, rfl, rfl, rfl, fun _ _ _ => rfl⟩

theorem Fed.trans (h : Fed i s t) (h' : Fed i t u) : Fed i s u := by
  obtain ⟨wr, rsr, pending, hown⟩ := h.own
  obtain ⟨wr', rsr', pending', hown'⟩ := h'.own
  refine
    { others := fun j hj => (h'.others j hj).trans (h.others j hj)
      own := ⟨wr', rsr', pending', by rw [hown', hown]⟩
      stored := fun j hj => (h'.stored j hj).trans (h.stored j hj)
      worker := h'.worker.trans h.worker
      mode := h'.mode.trans h.mode
      dataAddr := h'.dataAddr.trans h.dataAddr
      memory := fun a ha hne => ?_ }
  have hmem := h'.memory a
  rw [hown] at hmem
  exact (hmem ha hne).trans (h.memory a ha hne)

theorem fed_setRxPending (i : Fin 4) (s : Chip) (pending : List Byte) :
    Fed i s (s.setSocket i { s.sockets i with rxPending := pending }) where
  others j hj := by rw [setSocket_sockets, if_neg hj]
  own := ⟨_, _, _, by rw [setSocket_sockets, if_pos rfl]⟩
  stored _ _ := rfl
  worker := rfl
  mode := rfl
  dataAddr := rfl
  memory _ _ _ := rfl

theorem fed_raiseIr (i : Fin 4) (s : Chip) (bits : Byte) : Fed i s (s.raiseIr i bits) where
  others j _ := by rw [raiseIr_sockets]
  own := ⟨_, _, _, by rw [raiseIr_sockets]⟩
  stored j _ := by rw [Chip.stored, raiseIr_stores, Chip.stored]
  worker := s.raiseIr_worker i bits
  mode := by unfold Chip.raiseIr; split <;> rfl
  dataAddr := by unfold Chip.raiseIr; split <;> rfl
  memory a _ hne := s.raiseIr_memory_of_ne i bits a hne

def storeAt (i : Fin 4) (v : Byte) (a : Index) (s : Chip) : Chip :=
  let st := s.sockets i
  { (s.setMem a v).setSocket i
      { st with snRxWr := (st.snRxWr + 1) % st.receiveSize, snRxRsr := (st.snRxRsr + 1) % 0x10000 } with
    stores := s.stores ++ [⟨i, a, v, st.receiveBase, st.receiveSize⟩] }

theorem storeAt_sockets (v : Byte) (a : Index) (j : Fin 4) :
    (s.storeAt i v a).sockets j =
      if j = i then
        { s.sockets i with
          snRxWr := ((s.sockets i).snRxWr + 1) % (s.sockets i).receiveSize
          snRxRsr := ((s.sockets i).snRxRsr + 1) % 0x10000 }
      else s.sockets j := rfl

theorem storeAt_memory (v : Byte) (a b : Index) : (s.storeAt i v a).memory b = if b = a then v else s.memory b := rfl

theorem storeAt_stored (v : Byte) (a : Index) (j : Fin 4) :
    (s.storeAt i v a).stored j = s.stored j ++ if i = j then [v] else [] := by
  by_cases hij : i = j <;> simp [stored, storeAt, hij]

theorem writeRxByte_of_size (v : Byte) (hsize : (s.sockets i).receiveSize ≠ 0)
    (h : (s.sockets i).receiveBase + (s.sockets i).snRxWr < memSize) :
    s.writeRxByte i v = some (s.storeAt i v ⟨_, h⟩) := by
  rw [writeRxByte, if_neg hsize, dif_pos h]
  rfl

theorem Safe.next_inside (h : Safe s) (i : Fin 4) (hsize : (s.sockets i).receiveSize ≠ 0) :
    (s.sockets i).snRxWr < (s.sockets i).receiveSize ∧
      (s.sockets i).receiveBase + (s.sockets i).snRxWr < memSize := by
  have hbelow := h.below i
  have hinside := h.inside i
  unfold Below at hbelow
  omega

theorem Safe.storeAt (h : Safe s) (v : Byte) {a : Index} (hsize : (s.sockets i).receiveSize ≠ 0)
    (ha : a.val = (s.sockets i).receiveBase + (s.sockets i).snRxWr) : Safe (s.storeAt i v a) := by
  have hwr := (h.next_inside i hsize).1
  have hinside := h.inside i
  refine ⟨?_, ?_, fun j => ?_, fun st hst => ?_⟩
  · obtain ⟨value, hvalue⟩ := h.rxWindow
    refine ⟨value, fun j => ?_⟩
    rw [← (hvalue j).1, ← (hvalue j).2, storeAt_sockets]
    split
    · next hj => exact hj ▸ ⟨rfl, rfl⟩
    · exact ⟨rfl, rfl⟩
  · obtain ⟨value, hvalue⟩ := h.txWindow
    refine ⟨value, fun j => ?_⟩
    rw [← (hvalue j).1, ← (hvalue j).2, storeAt_sockets]
    split
    · next hj => exact hj ▸ ⟨rfl, rfl⟩
    · exact ⟨rfl, rfl⟩
  · rw [storeAt_sockets]
    split
    · exact .inr (Nat.mod_lt _ (Nat.pos_of_ne_zero hsize))
    · exact h.below j
  · rcases List.mem_append.1 hst with hst | hst
    · exact h.stores st hst
    · rw [List.mem_singleton.1 hst]
      exact ⟨ha ▸ Nat.le_add_right _ _, ha ▸ Nat.add_lt_add_left hwr _, hinside.1, hinside.2⟩

theorem fed_storeAt (v : Byte) {a : Index} (hwr : (s.sockets i).snRxWr < (s.sockets i).receiveSize)
    (ha : a.val = (s.sockets i).receiveBase + (s.sockets i).snRxWr) : Fed i s (s.storeAt i v a) where
  others j hj := by rw [storeAt_sockets, if_neg hj]
  own := ⟨_, _, _, by rw [storeAt_sockets, if_pos rfl]⟩
  stored j hj := by rw [storeAt_stored, if_neg hj.symm, List.append_nil]
  worker := rfl
  mode := rfl
  dataAddr := rfl
  memory b hb _ := by
    rw [storeAt_memory, if_neg]
    rintro rfl
    omega

theorem Safe.writeRxByte (h : Safe s) (i : Fin 4) (v : Byte) :
    Yields (s.writeRxByte i v) (fun t => Safe t ∧ Fed i s t) := by
  by_cases hsize : (s.sockets i).receiveSize = 0
  · rw [Chip.writeRxByte, if_pos hsize]
    exact yields_some.2 ⟨h, .refl i s⟩
  obtain ⟨hwr, hlast⟩ := h.next_inside i hsize
  rw [writeRxByte_of_size v hsize hlast, yields_some]
  exact ⟨h.storeAt v hsize rfl, fed_storeAt v hwr rfl⟩

theorem Safe.writeRxData (h : Safe s) (i : Fin 4) (vs : List Byte) :
    Yields (s.writeRxData i vs) (fun t => Safe t ∧ Fed i s t) := by
  induction vs generalizing s with
  | nil => exact yields_some.2 ⟨h, .refl i s⟩
  | cons v vs ih =>
    refine (h.writeRxByte i v).bind (fun t ht => ?_)
    exact (ih ht.1).mono (fun u hu => ⟨hu.1, ht.2.trans hu.2⟩)

theorem Safe.flushLoop (h : Safe s) (i : Fin 4) (fuel moved : Nat) :
    Yields (s.flushLoop i fuel moved) (fun r => Safe r.1 ∧ Fed i s r.1) := by
  induction fuel generalizing s moved with
  | zero => exact yields_some.2 ⟨h, .refl i s⟩
  | succ fuel ih =>
    rw [Chip.flushLoop]
    simp only
    split
    · exact yields_some.2 ⟨h, .refl i s⟩
    · refine (h.writeRxData i _).bind (fun t ht => ?_)
      have hset := fed_setRxPending i t ((s.sockets i).rxPending.drop (min (s.rxFree i) (s.sockets i).rxPending.length))
      exact (ih (ht.1.setRxPending i _) _).mono (fun r hr => ⟨hr.1, ht.2.trans (hset.trans hr.2)⟩)

theorem Safe.flushTcpPending (h : Safe s) (i : Fin 4) :
    Yields (s.flushTcpPending i) (fun r => Safe r.1 ∧ Fed i s r.1) := h.flushLoop i _ 0

theorem Safe.flushRaise (h : Safe s) (i : Fin 4) : Yields (s.flushRaise i) (fun t => Safe t ∧ Fed i s t) := by
  refine (h.flushTcpPending i).bind (fun r hr => ?_)
  simp only [yields_some]
  split
  · exact ⟨hr.1.raiseIr i _, hr.2.trans (fed_raiseIr i _ _)⟩
  · exact hr

theorem Safe.ingestTcp (h : Safe s) (i : Fin 4) (data : List Byte) :
    Yields (s.ingestTcp i data) (fun t => Safe t ∧ Fed i s t) := by
  refine (h.flushTcpPending i).bind (fun r hr => ?_)
  refine (hr.1.writeRxData i _).bind (fun t ht => ?_)
  rw [yields_some]
  exact ⟨ht.1.setRxPending i _, hr.2.trans (ht.2.trans (fed_setRxPending i t _))⟩

theorem Safe.storePacket (h : Safe s) (i : Fin 4) (header payload : List Byte) :
    Yields (s.storePacket i header payload) (fun t => Safe t ∧ Fed i s t) := by
  unfold Chip.storePacket
  split
  · refine (h.writeRxData i _).bind (fun t ht => ?_)
    rw [yields_some]
    exact ⟨ht.1.raiseIr i _, ht.2.trans (fed_raiseIr i t _)⟩
  · exact yields_some.2 ⟨h, .refl i s⟩

theorem Safe.storeMacraw (h : Safe s) (toUs broadcast : Bool) (frame : List Byte) :
    Yields (s.storeMacraw toUs broadcast frame) (fun t => Safe t ∧ ∃ i, Fed i s t) := by
  unfold Chip.storeMacraw
  split
  · exact yields_some.2 ⟨h, 0, .refl 0 s⟩
  · split
    · exact yields_some.2 ⟨h, 0, .refl 0 s⟩
    · exact (h.storePacket 0 _ _).mono (fun t ht => ⟨ht.1, 0, ht.2⟩)

theorem Safe.ingestMacraw (h : Safe s) (frame : List Byte) :
    Yields (s.ingestMacraw frame) (fun t => Safe t ∧ ∃ i, Fed i s t) := by
  unfold Chip.ingestMacraw
  split
  · exact yields_some.2 ⟨h, 0, .refl 0 s⟩
  · simp only
    split
    · next i _ =>
      split
      · exact (h.storePacket i _ _).mono (fun t ht => ⟨ht.1, i, ht.2⟩)
      · exact h.storeMacraw _ _ frame
    · exact h.storeMacraw _ _ frame

theorem Safe.applyEvent (h : Safe s) (ev : NetEvent) : Yields (s.applyEvent ev) Safe := by
  unfold Chip.applyEvent
  split
  · next hsock =>
    simp only
    split
    · exact yields_some.2 h
    · split
      · exact yields_some.2 (h.applyStatus _ ev)
      · refine (h.ingestTcp _ _).bind (fun t ht => ?_)
        rw [yields_some]
        split
        · exact ht.1.raiseIr _ _
        · exact ht.1
      · exact (h.storePacket _ _ _).mono (fun t ht => ht.1)
      · exact (h.ingestMacraw _).mono (fun t ht => ht.1)
      · exact (h.storePacket _ _ _).mono (fun t ht => ht.1)
      · exact yields_some.2 (h.raiseIr _ _)
      · exact yields_some.2 h
  · exact yields_some.2 h

theorem Safe.flushAll (h : Safe s) : Yields s.flushAll Safe := by
  refine yields_foldlM (fun t i _ ht => ?_) h
  split
  · exact yields_some.2 ht
  · exact (ht.flushRaise i).mono (fun u hu => hu.1)

theorem Safe.frameTick (h : Safe s) : Yields s.frameTick Safe := by
  refine h.flushAll.bind (fun t ht => ?_)
  exact yields_foldlM (fun u ev _ hu => hu.applyEvent ev) (ht.withWorker _)

end

section

variable {s : Chip}

theorem wrapped_lt (a : Nat) : a % memSize < memSize := Nat.mod_lt _ (by decide)

def byteAt (a : Nat) (s : Chip) : Byte := s.memory ⟨a % memSize, wrapped_lt a⟩

theorem at?_eq {a : Nat} (h : a < memSize) : s.at? a = some (s.byteAt a) := by
  unfold at? byteAt
  rw [dif_pos h]
  simp only [Nat.mod_eq_of_lt h]

def sendAddress (i : Fin 4) (s : Chip) (c : Nat) : Nat :=
  (s.sockets i).transmitBase +
    (((s.txRd i &&& ((s.sockets i).transmitSize - 1)) + c) &&& ((s.sockets i).transmitSize - 1))

theorem Safe.gather_eq (h : Safe s) (i : Fin 4) :
    s.gather i = some ((List.range (s.txDataSize i)).map (fun c => s.byteAt (s.sendAddress i c))) := by
  have hlast := h.transmit_inside i
  have hin : ∀ c ∈ List.range (s.txDataSize i), s.at? (s.sendAddress i c) = some (s.byteAt (s.sendAddress i c)) := by
    intro c hc
    have hpos : 0 < s.txDataSize i := Nat.zero_lt_of_lt (List.mem_range.1 hc)
    have hsize : (s.sockets i).transmitSize ≠ 0 := by
      intro h0
      simp [txDataSize, h0] at hpos
    have hmask := Nat.and_le_right (n := (s.txRd i &&& ((s.sockets i).transmitSize - 1)) + c)
      (m := (s.sockets i).transmitSize - 1)
    refine at?_eq ?_
    unfold sendAddress
    have hrx : rxBase ≤ memSize := by decide
    omega
  exact mapM_some hin

theorem Safe.sendData (h : Safe s) (i : Fin 4) : Yields (s.sendData i) Safe := by
  unfold Chip.sendData
  split
  · exact yields_some.2 h
  · rw [h.gather_eq i]
    exact yields_some.2 ((h.setMems _).post _)

theorem Safe.receive (h : Safe s) (i : Fin 4) : Yields (s.receive i) Safe := by
  unfold Chip.receive
  simp only
  refine (Safe.flushRaise ?_ i).mono (fun t ht => ht.1)
  split
  · exact (h.updateRsr i).withWorker _
  · exact h.updateRsr i

theorem Safe.handleCommand (h : Safe s) (i : Fin 4) (cmd : Byte) (bound : Bool) :
    Yields (s.handleCommand i cmd bound) Safe := by
  unfold Chip.handleCommand
  simp only
  split
  · exact yields_some.2 (h.openSocket i)
  split
  · rw [yields_some]
    split
    · exact h.listenSocket i bound
    · exact h
  split
  · rw [yields_some]
    split
    · exact (h.post _).setStatus i _
    · exact h
  split
  · rw [yields_some]
    split
    · exact (((h.closeHost i _).setStatus i _).setHeaderSize i).raiseIr i _
    · exact h
  split
  · exact yields_some.2 (((h.closeHost i _).setStatus i _).setHeaderSize i)
  split
  · exact h.sendData i
  split
  · rw [yields_some]
    split
    · exact h.raiseIr i _
    · exact h
  split
  · exact h.receive i
  · exact yields_some.2 h

theorem Safe.writeSocketReg (h : Safe s) (address : Nat) (ha : 0x400 ≤ address ∧ address ≤ 0x7FF) (value : Byte)
    (bound : Bool) : Yields (s.writeSocketReg address ha value bound) Safe := by
  unfold Chip.writeSocketReg
  simp only
  split
  · split
    · exact (h.handleCommand _ value bound).bind (fun t ht => yields_some.2 (ht.setMem _ _))
    · exact yields_some.2 (h.setMem _ _)
  all_goals first | exact yields_some.2 h | exact yields_some.2 (h.setMem _ _)

theorem resetSocket_sockets (i j : Fin 4) :
    (s.resetSocket i).sockets j = if j = i then { gen := (s.sockets i).gen + 1 } else s.sockets j := by
  rw [resetSocket, setMems_sockets, closeHost_sockets]
  by_cases hj : j = i
  · simp [hj]
  · simp [hj]

theorem resetSocket_stores (i : Fin 4) : (s.resetSocket i).stores = s.stores := by
  rw [resetSocket, setMems_stores, closeHost_stores, setSocket_stores]

theorem resetSockets_sockets (j : Fin 4) :
    ((List.finRange 4).foldl resetSocket s).sockets j = { gen := (s.sockets j).gen + 1 } := by
  rw [show List.finRange 4 = [0, 1, 2, 3] from rfl]
  simp only [List.foldl_cons, List.foldl_nil, resetSocket_sockets]
  match j with
  | 0 | 1 | 2 | 3 => rfl

theorem resetSockets_stores : ((List.finRange 4).foldl resetSocket s).stores = s.stores :=
  List.foldlRecOn (motive := fun t : Chip => t.stores = s.stores) _ _ rfl
    (fun _ ht i _ => (resetSocket_stores i).trans ht)

theorem safe_reset (powerCycle : Bool) (h : ∀ st ∈ s.stores, st.Inside) : Safe (s.reset powerCycle) := by
  unfold reset
  simp only
  refine List.foldlRecOn (motive := Safe) _ _ ?_ (fun t ht i _ => ht.resetRxtx i)
  refine ⟨⟨0x55, fun i => ⟨rfl, rfl⟩⟩, ⟨0x55, fun i => ⟨rfl, rfl⟩⟩, fun i => ?_, ?_⟩
  · simp only [setTxSizes_sockets, setRxSizes_sockets, setMems_sockets, resetSockets_sockets, Below]
    exact (Nat.eq_zero_or_pos _)
  · rw [setTxSizes_stores, setRxSizes_stores, setMems_stores, resetSockets_stores]
    exact h

theorem Safe.reset (h : Safe s) (powerCycle : Bool) : Safe (s.reset powerCycle) := safe_reset powerCycle h.stores

theorem Safe.writeMode (h : Safe s) (value : Byte) : Safe (s.writeMode value) := by
  unfold Chip.writeMode
  split
  · exact h.reset false
  · exact h.of_eq rfl rfl

def Holds (value : Byte) (s : Chip) : Prop := ∀ i, Below (window rxBase memSize value i).2 (s.sockets i)

instance (value : Byte) : Decidable (Holds value s) :=
  inferInstanceAs (Decidable (∀ i, Below (window rxBase memSize value i).2 (s.sockets i)))

theorem Safe.setRxSizes (h : Safe s) {value : Byte} (hholds : Holds value s) : Safe (s.setRxSizes value) :=
  ⟨⟨value, fun _ => ⟨rfl, rfl⟩⟩, h.txWindow, hholds, h.stores⟩

theorem Safe.setTxSizes (h : Safe s) (value : Byte) : Safe (s.setTxSizes value) :=
  ⟨h.rxWindow, ⟨value, fun _ => ⟨rfl, rfl⟩⟩, h.below, h.stores⟩

theorem Safe.writeAt (h : Safe s) (address : Nat) (value : Byte) (bound : Bool)
    (hholds : address = 0x001A → Holds value s) : Yields (s.writeAt address value bound) Safe := by
  unfold Chip.writeAt
  split
  · exact yields_some.2 (h.writeMode value)
  split
  · exact yields_some.2 (h.setMem _ _)
  split
  · next ha => exact yields_some.2 (h.setRxSizes (hholds ha))
  split
  · exact yields_some.2 (h.setTxSizes value)
  split
  · exact yields_some.2 (h.setMem _ _)
  split
  · exact h.writeSocketReg address _ value bound
  split
  · exact yields_some.2 (h.setMem _ _)
  · exact yields_some.2 h

theorem Safe.autoIncrement (h : Safe s) : Safe s.autoIncrement := by
  unfold Chip.autoIncrement
  split
  · exact h.of_eq rfl rfl
  · exact h

theorem Safe.ioRead (h : Safe s) (loc : Nat) : Safe (s.ioRead loc).2 := by
  unfold Chip.ioRead
  split
  · exact h
  · exact h
  · exact h
  · exact h.autoIncrement

theorem Safe.ioWrite (h : Safe s) (loc : Nat) (value : Byte) (bound : Bool)
    (hholds : loc % 4 = 3 → s.dataAddr = 0x001A → Holds value s) : Yields (s.ioWrite loc value bound) Safe := by
  unfold Chip.ioWrite
  obtain hloc | hloc | hloc | hloc : loc % 4 = 0 ∨ loc % 4 = 1 ∨ loc % 4 = 2 ∨ loc % 4 = 3 := by omega
  · rw [hloc]
    exact yields_some.2 (h.writeMode value)
  · rw [hloc]
    exact yields_some.2 (h.of_eq rfl rfl)
  · rw [hloc]
    exact yields_some.2 (h.of_eq rfl rfl)
  · rw [hloc]
    exact (h.writeAt s.dataAddr value bound (hholds hloc)).bind (fun t ht => yields_some.2 ht.autoIncrement)

end

inductive Access where
  | read (loc : Nat)
  | write (loc : Nat) (value : Byte) (bound : Bool)
  | frame
  | reset (powerCycle : Bool)
  | host (worker : NetWorker)

def access (s : Chip) : Access → Option Chip
  | .read loc => some (s.ioRead loc).2
  | .write loc value bound => s.ioWrite loc value bound
  | .frame => s.frameTick
  | .reset powerCycle => some (s.reset powerCycle)
  | .host worker => some { s with worker := worker }

/-- The chip that `start` resets. -/
def start : Chip := ({} : Chip).reset true

def Holding (s : Chip) : Access → Prop
  | .write loc value _ => loc % 4 = 3 → s.dataAddr = 0x001A → Holds value s
  | _ => True

instance (s : Chip) : ∀ a, Decidable (Holding s a)
  | .write loc value _ => inferInstanceAs (Decidable (loc % 4 = 3 → s.dataAddr = 0x001A → Holds value s))
  | .read _ | .frame | .reset _ | .host _ => isTrue trivial

theorem Safe.access {s : Chip} (h : Safe s) {a : Access} (hguard : Holding s a) : Yields (s.access a) Safe := by
  cases a with
  | read loc => exact yields_some.2 (h.ioRead loc)
  | write loc value bound => exact h.ioWrite loc value bound hguard
  | frame => exact h.frameTick
  | reset powerCycle => exact yields_some.2 (h.reset powerCycle)
  | host worker => exact yields_some.2 (h.withWorker worker)

def Reached (s : Chip) : Prop := ∃ accesses, Guarded access Holding start accesses ∧ accesses.foldlM access start = some s

theorem safe_start : Safe start := safe_reset true (fun _ h => nomatch h)

theorem Reached.safe {s : Chip} (h : Reached s) : Safe s := by
  obtain ⟨accesses, hguard, hs⟩ := h
  exact (hguard.yields (fun _ _ hg ht => ht.access hg) safe_start).of_eq hs

/-- The memory is safe and the sockets are apart. -/
structure Isolated (s : Chip) : Prop where
  stores : ∀ st ∈ s.stores, st.base ≤ st.address ∧ st.address < st.base + st.size
  pool : ∀ st ∈ s.stores, rxBase ≤ st.base ∧ st.base + st.size ≤ memSize
  inside : ∀ i, rxBase ≤ (s.sockets i).receiveBase ∧ (s.sockets i).receiveBase + (s.sockets i).receiveSize ≤ memSize
  disjoint : ∀ i j, i ≠ j →
    (s.sockets i).receiveBase + (s.sockets i).receiveSize ≤ (s.sockets j).receiveBase ∨
      (s.sockets j).receiveBase + (s.sockets j).receiveSize ≤ (s.sockets i).receiveBase

theorem Safe.isolated {s : Chip} (h : Safe s) : Isolated s where
  stores st hst := ⟨(h.stores st hst).above, (h.stores st hst).below⟩
  pool st hst := ⟨(h.stores st hst).first, (h.stores st hst).last⟩
  inside := h.inside
  disjoint _ _ hij := h.disjoint hij

/-- As long as the guest resizes no window under a write offset, no access goes out of the memory
and every byte received is stored in the window of its socket. -/
theorem memory_isolated (accesses : List Access) (h : Guarded access Holding start accesses) :
    ∃ s, accesses.foldlM access start = some s ∧ Isolated s :=
  (h.yields (fun _ _ hguard hs => hs.access hguard) safe_start).mono (fun _ hs => hs.isolated)

def poke (address : Nat) (value : Byte) : List Access :=
  [.write 1 (BitVec.ofNat 8 (address / 0x100)) false, .write 2 (BitVec.ofNat 8 address) false, .write 3 value false]

def datagram (n : Nat) : List Access :=
  [.host { events := [{ evt := .rxUdp, sock := 3, gen := 2, payload := List.replicate n 0 }] }, .frame]

def received (n : Nat) : List Access := poke 0x700 Mr.udp ++ poke 0x701 Cr.open' ++ datagram n

theorem memory_isolated_resize :
    ∃ s, (received 1000 ++ poke 0x1A 0x06).foldlM access start = some s ∧ Isolated s :=
  memory_isolated _ (by decide +kernel)

/-- What has been received is read, the windows are cut anew so that socket 3 has the last 1K of
the pool, and the next byte goes past the end of the memory. -/
def shrinking : List Access :=
  received 1016 ++ poke 0x728 0x04 ++ poke 0x729 0x00 ++ poke 0x701 Cr.recv ++ poke 0x1A 0x06 ++ datagram 1

theorem store_past_memory : ¬ ∀ accesses : List Access, ∃ s, accesses.foldlM access start = some s ∧ Isolated s := by
  intro h
  obtain ⟨s, hs, _⟩ := h shrinking
  have hnone : (shrinking.foldlM access start).isNone = true := by decide +kernel
  rw [hs] at hnone
  cases hnone

end Chip

end GSSquared.Uthernet
