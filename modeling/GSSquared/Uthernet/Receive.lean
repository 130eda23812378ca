/-
The receive ring of a socket.
-/
import GSSquared.Uthernet.Windows
import GSSquared.Lib.Circular

set_option linter.all false

namespace GSSquared.Uthernet

open Bits Partial

theorem reg_inj {i j : Fin 4} {r q : Fin 0x100} : reg i r = reg j q ↔ i = j ∧ r = q := by
  simp only [reg, Fin.ext_iff]
  omega

theorem reg_lt (i : Fin 4) (r : Fin 0x100) : (reg i r).val < rxBase := by
  simp only [reg, rxBase]
  omega

namespace Chip

structure Local (j : Fin 4) (s t : Chip) : Prop where
  others : ∀ k, k ≠ j → t.sockets k = s.sockets k
  stores : t.stores = s.stores
  memory : ∀ a, (∀ r, a ≠ reg j r) → t.memory a = s.memory a

section

variable {s t u : Chip} {j : Fin 4}

theorem Local.refl (j : Fin 4) (s : Chip) : Local j s s := ⟨fun _ _ => rfl, rfl, fun _ _ => rfl⟩

theorem Local.trans (h : Local j s t) (h' : Local j t u) : Local j s u where
  others k hk := (h'.others k hk).trans (h.others k hk)
  stores := h'.stores.trans h.stores
  memory a ha := (h'.memory a ha).trans (h.memory a ha)

theorem local_setSocket (j : Fin 4) (st : SocketState) (s : Chip) : Local j s (s.setSocket j st) :=
  ⟨fun k hk => by rw [setSocket_sockets, if_neg hk], rfl, fun _ _ => rfl⟩

theorem local_withWorker (j : Fin 4) (worker : NetWorker) (s : Chip) : Local j s { s with worker := worker } :=
  ⟨fun _ _ => rfl, rfl, fun _ _ => rfl⟩

theorem local_setReg (j : Fin 4) (r : Fin 0x100) (v : Byte) (s : Chip) : Local j s (s.setMem (reg j r) v) :=
  ⟨fun _ _ => rfl, rfl, fun a ha => by rw [setMem_memory, if_neg (ha r)]⟩

theorem local_setMems (l : List (Index × Byte)) (hl : ∀ p ∈ l, ∃ r, p.1 = reg j r) (s : Chip) :
    Local j s (s.setMems l) where
  others k _ := by rw [setMems_sockets]
  stores := s.setMems_stores l
  memory a ha := by
    refine s.setMems_memory_of_ne l a (fun p hp => ?_)
    obtain ⟨r, hr⟩ := hl p hp
    exact hr ▸ ha r

variable (j : Fin 4)

theorem local_raiseIr (bits : Byte) (s : Chip) : Local j s (s.raiseIr j bits) where
  others k _ := by rw [raiseIr_sockets]
  stores := s.raiseIr_stores j bits
  memory a ha := s.raiseIr_memory_of_ne j bits a (ha 0x02)

theorem local_resetRxtx (s : Chip) : Local j s (s.resetRxtx j) := by
  refine (local_setSocket j _ s).trans (local_setMems _ ?_ _)
  simp only [List.forall_mem_cons]
  exact ⟨⟨_, rfl⟩, ⟨_, rfl⟩, ⟨_, rfl⟩, ⟨_, rfl⟩, ⟨_, rfl⟩, ⟨_, rfl⟩, fun _ h => nomatch h⟩

theorem local_setPeer (ip : Ip) (port : Nat) (s : Chip) : Local j s (s.setPeer j ip port) := by
  unfold setPeer
  split
  · refine local_setMems _ ?_ _
    simp only [List.forall_mem_cons]
    exact ⟨⟨_, rfl⟩, ⟨_, rfl⟩, ⟨_, rfl⟩, ⟨_, rfl⟩, ⟨_, rfl⟩, ⟨_, rfl⟩, fun _ h => nomatch h⟩
  · exact .refl j s

theorem local_consume (s : Chip) : Local j s (s.consume j) := by
  refine local_setMems _ ?_ _
  simp only [List.forall_mem_cons]
  exact ⟨⟨_, rfl⟩, ⟨_, rfl⟩, fun _ h => nomatch h⟩

theorem local_post (req : NetRequest) (s : Chip) : Local j s (s.post req) := local_withWorker j _ s

theorem local_setStatus (status : Byte) (s : Chip) : Local j s (s.setStatus j status) :=
  local_setSocket j _ s

theorem local_setHeaderSize (s : Chip) : Local j s (s.setHeaderSize j) := local_setSocket j _ s

theorem local_dropHost (s : Chip) : Local j s (s.dropHost j) :=
  (local_setSocket j _ s).trans (local_withWorker j _ _)

theorem local_closeHost (how : NetMsg) (s : Chip) : Local j s (s.closeHost j how) :=
  ((local_setSocket j _ s).trans (local_post j _ _)).trans (local_withWorker j _ _)

theorem local_openSocket (s : Chip) : Local j s (s.openSocket j) := by
  unfold openSocket
  simp only
  have hclosed := local_closeHost j .closeHost s
  refine Local.trans ?_ (local_withWorker j _ _)
  refine Local.trans ?_ (local_resetRxtx j _)
  refine Local.trans ?_ (local_setHeaderSize j _)
  refine Local.trans ?_ (local_setStatus j _ _)
  split
  · exact hclosed.trans (local_post j _ _)
  · split
    · exact hclosed.trans (local_post j _ _)
    · exact hclosed

theorem local_close (how : NetMsg) (status bits : Byte) (s : Chip) :
    Local j s ((((s.closeHost j how).setStatus j status).setHeaderSize j).raiseIr j bits) :=
  (((local_closeHost j how s).trans (local_setStatus j _ _)).trans (local_setHeaderSize j _)).trans
    (local_raiseIr j _ _)

theorem local_listenSocket (bound : Bool) (s : Chip) : Local j s (s.listenSocket j bound) := by
  unfold listenSocket
  simp only
  split
  · exact (local_withWorker j _ s).trans (local_setStatus j _ _)
  · exact local_close j _ _ _ s

theorem local_applyStatus (ev : NetEvent) (s : Chip) : Local j s (s.applyStatus j ev) := by
  unfold applyStatus
  have hset := fun status => local_setStatus j status s
  split
  · exact (((hset _).trans (local_setPeer j _ _ _)).trans (local_setHeaderSize j _)).trans (local_raiseIr j _ _)
  · exact ((hset _).trans (local_setHeaderSize j _)).trans (local_raiseIr j _ _)
  · exact ((local_dropHost j s).trans (local_setHeaderSize j _)).trans (local_raiseIr j _ _)
  · exact ((local_dropHost j s).trans (local_setHeaderSize j _)).trans (local_raiseIr j _ _)
  · exact (hset _).trans (local_setHeaderSize j _)

end

structure Apart (i : Fin 4) (s t : Chip) : Prop where
  socket : ∃ base size, t.sockets i = { s.sockets i with transmitBase := base, transmitSize := size }
  stored : t.stored i = s.stored i
  rd : t.rxRd i = s.rxRd i
  window : ∀ a, (s.sockets i).receiveBase ≤ a → a < (s.sockets i).receiveBase + (s.sockets i).receiveSize →
    t.byteAt a = s.byteAt a

section

variable {s t u : Chip} {i j : Fin 4}

theorem Apart.refl (i : Fin 4) (s : Chip) : Apart i s s := ⟨⟨_, _, rfl⟩, rfl, rfl, fun _ _ _ => rfl⟩

theorem Apart.trans (h : Apart i s t) (h' : Apart i t u) : Apart i s u := by
  obtain ⟨base, size, hsocket⟩ := h.socket
  obtain ⟨base', size', hsocket'⟩ := h'.socket
  have hwindow := h'.window
  rw [hsocket] at hwindow
  exact
    { socket := ⟨base', size', by rw [hsocket', hsocket]⟩
      stored := h'.stored.trans h.stored
      rd := h'.rd.trans h.rd
      window := fun a ha hlt => (hwindow a ha hlt).trans (h.window a ha hlt) }

/-- An address that is neither of the read pointer nor in the window. -/
def Clear (i : Fin 4) (s : Chip) (a : Index) : Prop :=
  a ≠ reg i 0x28 ∧ a ≠ reg i 0x29 ∧
    (a.val < (s.sockets i).receiveBase ∨ (s.sockets i).receiveBase + (s.sockets i).receiveSize ≤ a.val)

theorem apart_of_clear (h : Safe s)
    (hsocket : ∃ base size, t.sockets i = { s.sockets i with transmitBase := base, transmitSize := size })
    (hstored : t.stored i = s.stored i) (hmem : ∀ a, ¬ Clear i s a → t.memory a = s.memory a) : Apart i s t where
  socket := hsocket
  stored := hstored
  rd := by
    unfold rxRd be16
    rw [hmem _ (fun hclear => hclear.1 rfl), hmem _ (fun hclear => hclear.2.1 rfl)]
  window a ha hlt := by
    have hinside := h.inside i
    have hlast : a < memSize := by omega
    refine hmem _ (fun hclear => ?_)
    have hclear := hclear.2.2
    simp only [Nat.mod_eq_of_lt hlast] at hclear
    omega

theorem Safe.clear_reg (h : Safe s) {r : Fin 0x100} (hr : j ≠ i ∨ (r ≠ 0x28 ∧ r ≠ 0x29)) : Clear i s (reg j r) := by
  have hinside := h.inside i
  have hlt := reg_lt j r
  refine ⟨fun heq => ?_, fun heq => ?_, by omega⟩
  all_goals
    obtain ⟨hj, hr'⟩ := reg_inj.1 heq
    rcases hr with hr | hr
    · exact hr hj
    · first | exact hr.1 hr' | exact hr.2 hr'

theorem Local.apart (h : Local j s t) (hs : Safe s) (hij : i ≠ j) : Apart i s t := by
  refine apart_of_clear hs ⟨_, _, h.others i hij⟩ (by rw [stored, h.stores, stored]) (fun a ha => ?_)
  refine h.memory a (fun r heq => ha ?_)
  rw [heq]
  exact hs.clear_reg (.inl hij.symm)

theorem Fed.apart (h : Fed j s t) (hs : Safe s) (hij : i ≠ j) : Apart i s t := by
  have hdisjoint := hs.disjoint hij
  have hinside := hs.inside j
  refine apart_of_clear hs ⟨_, _, h.others i hij⟩ (h.stored i hij) (fun a ha => ?_)
  have hne : a ≠ reg j 0x02 := by
    rintro rfl
    exact ha (hs.clear_reg (.inl hij.symm))
  refine h.memory a ?_ hne
  by_contra hwindow
  refine ha ⟨?_, ?_, by omega⟩
  all_goals
    rintro rfl
    have hlt := reg_lt i 0x28
    have hlt' := reg_lt i 0x29
    omega

theorem apart_setMem (hs : Safe s) {a : Index} (ha : Clear i s a) (v : Byte) : Apart i s (s.setMem a v) := by
  refine apart_of_clear hs ⟨_, _, rfl⟩ rfl (fun b hb => ?_)
  rw [setMem_memory, if_neg]
  rintro rfl
  exact hb ha

theorem apart_withWorker (i : Fin 4) (s : Chip) (worker : NetWorker) : Apart i s { s with worker := worker } :=
  ⟨⟨_, _, rfl⟩, rfl, rfl, fun _ _ _ => rfl⟩

theorem apart_raiseIr (hs : Safe s) (i j : Fin 4) (bits : Byte) : Apart i s (s.raiseIr j bits) := by
  unfold Chip.raiseIr
  split
  · exact apart_setMem hs (hs.clear_reg (.inr (by decide))) _
  · exact .refl i s

theorem Safe.handleCommand_apart (h : Safe s) (hij : i ≠ j) (cmd : Byte) (bound : Bool) :
    Yields (s.handleCommand j cmd bound) (fun t => Safe t ∧ Apart i s t) := by
  have hlocal {t : Chip} (ht : Safe t) (hl : Local j s t) : Safe t ∧ Apart i s t := ⟨ht, hl.apart h hij⟩
  unfold Chip.handleCommand
  simp only
  split
  · exact yields_some.2 (hlocal (h.openSocket j) (local_openSocket j s))
  split
  · rw [yields_some]
    split
    · exact hlocal (h.listenSocket j bound) (local_listenSocket j bound s)
    · exact ⟨h, .refl i s⟩
  split
  · rw [yields_some]
    split
    · exact hlocal ((h.post _).setStatus j _) ((local_post j _ s).trans (local_setStatus j _ _))
    · exact ⟨h, .refl i s⟩
  split
  · rw [yields_some]
    split
    · exact hlocal ((((h.closeHost j _).setStatus j _).setHeaderSize j).raiseIr j _) (local_close j _ _ _ s)
    · exact ⟨h, .refl i s⟩
  split
  · rw [yields_some]
    exact hlocal (((h.closeHost j _).setStatus j _).setHeaderSize j)
      (((local_closeHost j _ s).trans (local_setStatus j _ _)).trans (local_setHeaderSize j _))
  split
  · unfold Chip.sendData
    split
    · exact yields_some.2 ⟨h, .refl i s⟩
    · rw [h.gather_eq j]
      exact yields_some.2 (hlocal ((h.setMems _).post _) ((local_consume j s).trans (local_post j _ _)))
  split
  · rw [yields_some]
    split
    · exact hlocal (h.raiseIr j _) (local_raiseIr j _ s)
    · exact ⟨h, .refl i s⟩
  split
  · unfold Chip.receive
    simp only
    have hcount := (h.updateRsr j)
    have hcount' : Local j s (s.updateRsr j) := local_setSocket j _ s
    split
    · refine ((hcount.withWorker _).flushRaise j).mono (fun t ht => ⟨ht.1, ?_⟩)
      exact ((hcount'.trans (local_withWorker j _ _)).apart h hij).trans (ht.2.apart (hcount.withWorker _) hij)
    · refine (hcount.flushRaise j).mono (fun t ht => ⟨ht.1, ?_⟩)
      exact (hcount'.apart h hij).trans (ht.2.apart hcount hij)
  · exact yields_some.2 ⟨h, .refl i s⟩

end

theorem present_eq {k rd wr n : Nat} (hn : n < 2 ^ k) (h : wr % 2 ^ k = (rd + n) % 2 ^ k) :
    present (2 ^ k) rd wr = n := by
  have hrd : rd % 2 ^ k < 2 ^ k := Nat.mod_lt _ (Nat.two_pow_pos k)
  unfold present
  simp only [Nat.and_two_pow_sub_one_eq_mod, h]
  rw [← Nat.mod_add_mod]
  rcases Nat.lt_or_ge (rd % 2 ^ k + n) (2 ^ k) with hlt | hge
  · rw [Nat.mod_eq_of_lt hlt]
    split <;> omega
  · rw [Nat.mod_eq_sub_mod hge, Nat.mod_eq_of_lt (by omega)]
    split <;> omega

/-- The ring of a socket: `l` is what has been stored since it had stored `before`, `got` what
the guest has read and stepped over, `taken` of it since the last RECV. -/
structure Ring (i : Fin 4) (before l got : List Byte) (taken : Nat) (s : Chip) : Prop where
  kept : s.stored i = before ++ l
  wr : (s.sockets i).snRxWr = l.length % (s.sockets i).receiveSize
  rd : s.rxRd i = got.length % 0x10000
  stepped : taken ≤ got.length
  count : (s.sockets i).snRxRsr + (got.length - taken) = l.length
  inOrder : got <+: l
  room : (s.sockets i).snRxRsr < (s.sockets i).receiveSize ∨ l = []
  lies : Circular.Lies (s.byteAt ·) (s.sockets i).receiveBase (s.sockets i).receiveSize (got.length - taken) l

section

variable {s t : Chip} {i : Fin 4} {before l got : List Byte} {taken : Nat}

theorem Ring.apart (h : Ring i before l got taken s) (hapart : Apart i s t) : Ring i before l got taken t := by
  obtain ⟨base, size, hsocket⟩ := hapart.socket
  have hlies : Circular.Lies (t.byteAt ·) (s.sockets i).receiveBase (s.sockets i).receiveSize
      (got.length - taken) l := by
    rcases Nat.eq_zero_or_pos (s.sockets i).receiveSize with hzero | hpos
    · have hl : l = [] := h.room.resolve_left (by omega)
      exact Circular.lies_of_length_le (by rw [hl]; exact Nat.zero_le _)
    · exact h.lies.congr hpos (fun k hk => hapart.window _ (by omega) (by omega))
  exact
    { kept := hapart.stored.trans h.kept
      wr := by rw [hsocket]; exact h.wr
      rd := hapart.rd.trans h.rd
      stepped := h.stepped
      count := by rw [hsocket]; exact h.count
      inOrder := h.inOrder
      room := by rw [hsocket]; exact h.room
      lies := by rw [hsocket]; exact hlies }

theorem Ring.storeAt (h : Ring i before l got taken s) (hs : Safe s) (v : Byte) {a : Index}
    (hroom : (s.sockets i).snRxRsr + 1 < (s.sockets i).receiveSize)
    (ha : a.val = (s.sockets i).receiveBase + (s.sockets i).snRxWr) :
    Ring i before (l ++ [v]) got taken (s.storeAt i v a) := by
  have hinside := hs.inside i
  have hcount := h.count
  have hmem : rxBase = 0x6000 ∧ memSize = 0x8000 := ⟨rfl, rfl⟩
  have hreg (r : Fin 0x100) : (s.storeAt i v a).memory (reg i r) = s.memory (reg i r) := by
    rw [storeAt_memory, if_neg]
    rintro rfl
    have hlt := reg_lt i r
    omega
  have hbyte (k : Nat) (hk : k < (s.sockets i).receiveSize) :
      (s.storeAt i v a).byteAt ((s.sockets i).receiveBase + k) =
        if k = l.length % (s.sockets i).receiveSize then v else s.byteAt ((s.sockets i).receiveBase + k) := by
    have hlast : (s.sockets i).receiveBase + k < memSize := by omega
    simp only [byteAt, storeAt_memory, Fin.ext_iff, Nat.mod_eq_of_lt hlast, ha, h.wr]
    split <;> split <;> first | rfl | omega
  refine
    { kept := by rw [storeAt_stored, if_pos rfl, h.kept, List.append_assoc]
      wr := ?_
      rd := by rw [← h.rd, rxRd, be16, hreg, hreg]; rfl
      stepped := h.stepped
      count := ?_
      inOrder := h.inOrder.trans (List.prefix_append l [v])
      room := ?_
      lies := ?_ }
  · rw [storeAt_sockets, if_pos rfl, List.length_append, h.wr]
    exact Nat.mod_add_mod _ _ _
  · rw [storeAt_sockets, if_pos rfl, List.length_append]
    simp only [List.length_singleton]
    omega
  · rw [storeAt_sockets, if_pos rfl]
    simp only
    omega
  · rw [storeAt_sockets, if_pos rfl]
    simp only
    refine h.lies.push (by omega) ?_ (fun k hk hne => ?_)
    · rw [hbyte _ (Nat.mod_lt _ (by omega)), if_pos rfl]
    · rw [hbyte k hk, if_neg hne]

theorem Ring.writeRxData (vs : List Byte) {s : Chip} {l : List Byte} (h : Ring i before l got taken s) (hs : Safe s)
    (hroom : (s.sockets i).snRxRsr + vs.length < (s.sockets i).receiveSize ∨ vs = []) :
    Yields (s.writeRxData i vs)
      (fun t => Safe t ∧ Fed i s t ∧ (t.sockets i).rxPending = (s.sockets i).rxPending ∧
        Ring i before (l ++ vs) got taken t) := by
  induction vs generalizing s l with
  | nil => exact yields_some.2 ⟨hs, .refl i s, rfl, (List.append_nil l).symm ▸ h⟩
  | cons v vs ih =>
    have hroom := hroom.resolve_right (List.cons_ne_nil v vs)
    rw [List.length_cons] at hroom
    have hsize : (s.sockets i).receiveSize ≠ 0 := by omega
    obtain ⟨hwr, hlast⟩ := hs.next_inside i hsize
    rw [Chip.writeRxData, writeRxByte_of_size v hsize hlast]
    have hfed := fed_storeAt (s := s) (i := i) v (a := ⟨_, hlast⟩) hwr rfl
    have hrest := ih (h.storeAt hs v (a := ⟨_, hlast⟩) (by omega) rfl) (hs.storeAt v hsize rfl)
      (by rw [storeAt_sockets, if_pos rfl]; simp only; omega)
    refine hrest.mono (fun t ht => ⟨ht.1, hfed.trans ht.2.1, ht.2.2.1.trans ?_, ?_⟩)
    · rw [storeAt_sockets, if_pos rfl]
    · rw [List.append_cons]
      exact ht.2.2.2

theorem Ring.setRxPending (h : Ring i before l got taken s) (pending : List Byte) :
    Ring i before l got taken (s.setSocket i { s.sockets i with rxPending := pending }) := by
  have hsocket : (s.setSocket i { s.sockets i with rxPending := pending }).sockets i =
      { s.sockets i with rxPending := pending } := by rw [setSocket_sockets, if_pos rfl]
  exact
    { kept := h.kept
      wr := by rw [hsocket]; exact h.wr
      rd := h.rd
      stepped := h.stepped
      count := by rw [hsocket]; exact h.count
      inOrder := h.inOrder
      room := by rw [hsocket]; exact h.room
      lies := by rw [hsocket]; exact h.lies }

theorem Ring.flushLoop (fuel moved : Nat) {s : Chip} {l : List Byte} (h : Ring i before l got taken s) (hs : Safe s)
    (hfuel : (s.sockets i).rxPending.length ≤ fuel) :
    Yields (s.flushLoop i fuel moved)
      (fun r => Safe r.1 ∧ Fed i s r.1 ∧ ((r.1.sockets i).rxPending = [] ∨ r.1.rxFree i = 0) ∧
        ∃ l', Ring i before l' got taken r.1 ∧ l' ++ (r.1.sockets i).rxPending = l ++ (s.sockets i).rxPending) := by
  induction fuel generalizing s l moved with
  | zero =>
    have hnil : (s.sockets i).rxPending = [] := List.eq_nil_of_length_eq_zero (Nat.le_zero.1 hfuel)
    exact yields_some.2 ⟨hs, .refl i s, .inl hnil, l, h, rfl⟩
  | succ fuel ih =>
    rw [Chip.flushLoop]
    simp only
    split
    · next hstop => exact yields_some.2 ⟨hs, .refl i s, hstop, l, h, rfl⟩
    · next hgo =>
      rw [not_or] at hgo
      have hpos := List.length_pos_iff.2 hgo.1
      generalize hn : min (s.rxFree i) (s.sockets i).rxPending.length = n
      have hfree : (s.sockets i).snRxRsr + s.rxFree i < (s.sockets i).receiveSize := by
        have hne := hgo.2
        unfold rxFree at hne ⊢
        simp only at hne ⊢
        split at hne <;> split <;> omega
      have htake : ((s.sockets i).rxPending.take n).length = n := by rw [List.length_take]; omega
      refine (h.writeRxData _ hs (.inl (by rw [htake]; omega))).bind (fun t ht => ?_)
      obtain ⟨ht, hfed, hpending, hring⟩ := ht
      have hrest := ih (moved + n) (hring.setRxPending ((s.sockets i).rxPending.drop n)) (ht.setRxPending i _)
        (by rw [setSocket_sockets, if_pos rfl, List.length_drop]; omega)
      refine hrest.mono (fun r hr => ?_)
      obtain ⟨hr, hfed', hend, l', hring', heq⟩ := hr
      refine ⟨hr, hfed.trans ((fed_setRxPending i t _).trans hfed'), hend, l', hring', heq.trans ?_⟩
      rw [setSocket_sockets, if_pos rfl, List.append_assoc, List.take_append_drop]

theorem Ring.flushTcpPending (h : Ring i before l got taken s) (hs : Safe s) :
    Yields (s.flushTcpPending i)
      (fun r => Safe r.1 ∧ Fed i s r.1 ∧ ((r.1.sockets i).rxPending = [] ∨ r.1.rxFree i = 0) ∧
        ∃ l', Ring i before l' got taken r.1 ∧ l' ++ (r.1.sockets i).rxPending = l ++ (s.sockets i).rxPending) :=
  h.flushLoop _ 0 hs (Nat.le_refl _)

theorem Ring.raiseIr (h : Ring i before l got taken s) (hs : Safe s) (bits : Byte) :
    Ring i before l got taken (s.raiseIr i bits) := h.apart (apart_raiseIr hs i i bits)

theorem Ring.flushRaise (h : Ring i before l got taken s) (hs : Safe s) :
    Yields (s.flushRaise i)
      (fun t => Safe t ∧ Fed i s t ∧
        ∃ l', Ring i before l' got taken t ∧ l' ++ (t.sockets i).rxPending = l ++ (s.sockets i).rxPending) := by
  refine (h.flushTcpPending hs).bind (fun r hr => ?_)
  obtain ⟨hr, hfed, _, l', hring, heq⟩ := hr
  simp only [yields_some]
  split
  · refine ⟨hr.raiseIr i _, hfed.trans (fed_raiseIr i _ _), l', hring.raiseIr hr _, ?_⟩
    rw [raiseIr_sockets]
    exact heq
  · exact ⟨hr, hfed, l', hring, heq⟩

theorem Ring.ingestTcp (h : Ring i before l got taken s) (hs : Safe s) (data : List Byte) :
    Yields (s.ingestTcp i data)
      (fun t => Safe t ∧ Fed i s t ∧
        ∃ l', Ring i before l' got taken t ∧ l' ++ (t.sockets i).rxPending = l ++ (s.sockets i).rxPending ++ data) := by
  refine (h.flushTcpPending hs).bind (fun r hr => ?_)
  obtain ⟨hr, hfed, hend, l', hring, heq⟩ := hr
  simp only
  generalize hn : min (r.1.rxFree i) data.length = n
  have htake : (data.take n).length = n := by rw [List.length_take]; omega
  have hroom : (r.1.sockets i).snRxRsr + (data.take n).length < (r.1.sockets i).receiveSize ∨ data.take n = [] := by
    rw [htake]
    rcases Nat.eq_zero_or_pos n with hzero | hpos
    · exact .inr (by rw [hzero, List.take_zero])
    · refine .inl ?_
      have hne : 0 < r.1.rxFree i := by omega
      have hle : n ≤ r.1.rxFree i := by omega
      unfold rxFree at hne hle
      simp only at hne hle
      split at hne <;> split at hle <;> omega
  refine (hring.writeRxData _ hr hroom).bind (fun t ht => ?_)
  obtain ⟨ht, hfed', hpending, hring'⟩ := ht
  rw [yields_some]
  refine ⟨ht.setRxPending i _, hfed.trans (hfed'.trans (fed_setRxPending i t _)), _, hring'.setRxPending _, ?_⟩
  rw [setSocket_sockets, if_pos rfl, hpending, ← heq]
  -- what is left of the data goes behind what is pending, and then nothing was stored
  rcases hend with hnil | hfull
  · rw [hnil, List.append_nil, List.nil_append, List.append_assoc, List.take_append_drop]
  · have hzero : n = 0 := by omega
    rw [hzero, List.take_zero, List.append_nil, List.drop_zero, List.append_assoc]

theorem Ring.storePacket (h : Ring i before l got taken s) (hs : Safe s) {header : List Byte}
    (hheader : header.length = (s.sockets i).headerSize) (payload : List Byte) :
    Yields (s.storePacket i header payload)
      (fun t => Safe t ∧ Fed i s t ∧ (t.sockets i).rxPending = (s.sockets i).rxPending ∧
        (Ring i before l got taken t ∨ Ring i before (l ++ (header ++ payload)) got taken t)) := by
  unfold Chip.storePacket
  split
  · next hroom =>
    unfold roomFor at hroom
    simp only [Bool.and_eq_true, decide_eq_true_eq] at hroom
    refine (h.writeRxData _ hs (.inl (by rw [List.length_append]; omega))).bind (fun t ht => ?_)
    obtain ⟨ht, hfed, hpending, hring⟩ := ht
    rw [yields_some]
    refine ⟨ht.raiseIr i _, hfed.trans (fed_raiseIr i t _), ?_, .inr (hring.raiseIr ht _)⟩
    rw [raiseIr_sockets]
    exact hpending
  · exact yields_some.2 ⟨hs, .refl i s, rfl, .inl h⟩

end

end Chip

end GSSquared.Uthernet
