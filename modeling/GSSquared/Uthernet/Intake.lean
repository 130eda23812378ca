/-
What a socket takes in, by its numbers.
-/
import GSSquared.Uthernet.Fifo

set_option linter.all false

namespace GSSquared.Uthernet

open Bits Partial

/-- The first `k` of the bytes that wait have been stored. -/
def SocketState.takeIn (k : Nat) (pending : List Byte) (st : SocketState) : SocketState :=
  { st with snRxWr := (st.snRxWr + k) % st.receiveSize, snRxRsr := st.snRxRsr + k, rxPending := pending.drop k }

/-- The guest has stepped over `taken` of the bytes that `RX_RSR` counts. -/
structure Level (rd taken : Nat) (st : SocketState) : Prop where
  wr : st.snRxWr % st.receiveSize = (rd + (st.snRxRsr - taken)) % st.receiveSize
  stepped : taken ≤ st.snRxRsr
  room : st.snRxRsr < st.receiveSize

section

variable {rd taken k : Nat} {st : SocketState}

theorem Level.takeIn (h : Level rd taken st) (pending : List Byte) (hroom : st.snRxRsr + k < st.receiveSize) :
    Level rd taken (st.takeIn k pending) where
  wr := by
    have hstepped := h.stepped
    show (st.snRxWr + k) % st.receiveSize % st.receiveSize = (rd + (st.snRxRsr + k - taken)) % st.receiveSize
    rw [Nat.mod_mod, Nat.add_mod, h.wr, ← Nat.add_mod, show rd + (st.snRxRsr - taken) + k = rd + (st.snRxRsr + k - taken) by omega]
  stepped := Nat.le_add_right_of_le h.stepped
  room := hroom

theorem Level.step (h : Level rd taken st) (hdvd : st.receiveSize ∣ 0x10000) {n : Nat} (hn : taken + n ≤ st.snRxRsr) :
    Level ((rd + n) % 0x10000) (taken + n) st where
  wr := by
    rw [h.wr, Chip.mod_wrap_add hdvd, Nat.add_assoc, show n + (st.snRxRsr - (taken + n)) = st.snRxRsr - taken by omega]
  stepped := hn
  room := h.room

end

namespace Chip

section

variable {s t : Chip} {i : Fin 4}

theorem Safe.receiveSize_le (h : Safe s) (i : Fin 4) : (s.sockets i).receiveSize ≤ 0x2000 := by
  have hinside := h.inside i
  have hmem : rxBase = 0x6000 ∧ memSize = 0x8000 := ⟨rfl, rfl⟩
  omega

theorem Safe.wr_mod (h : Safe s) (hsize : 0 < (s.sockets i).receiveSize) :
    (s.sockets i).snRxWr % (s.sockets i).receiveSize = (s.sockets i).snRxWr :=
  Nat.mod_eq_of_lt (h.next_inside i (Nat.ne_of_gt hsize)).1

theorem Safe.takeIn_zero (h : Safe s) (hsize : 0 < (s.sockets i).receiveSize) :
    (s.sockets i).takeIn 0 (s.sockets i).rxPending = s.sockets i := by
  unfold SocketState.takeIn
  rw [Nat.add_zero, h.wr_mod hsize]
  rfl

theorem writeRxData_socket (vs : List Byte) {s : Chip} (h : Safe s)
    (hroom : (s.sockets i).snRxRsr + vs.length < (s.sockets i).receiveSize) :
    Yields (s.writeRxData i vs) (fun t => Safe t ∧ Fed i s t ∧
      t.sockets i =
        { s.sockets i with
          snRxWr := ((s.sockets i).snRxWr + vs.length) % (s.sockets i).receiveSize
          snRxRsr := (s.sockets i).snRxRsr + vs.length }) := by
  induction vs generalizing s with
  | nil =>
    refine yields_some.2 ⟨h, .refl i s, ?_⟩
    rw [List.length_nil, Nat.add_zero, h.wr_mod (by omega)]
    rfl
  | cons v vs ih =>
    rw [List.length_cons] at hroom
    have hsize : (s.sockets i).receiveSize ≠ 0 := by omega
    have hle := h.receiveSize_le i
    obtain ⟨hwr, hlast⟩ := h.next_inside i hsize
    have hrsr : ((s.sockets i).snRxRsr + 1) % 0x10000 = (s.sockets i).snRxRsr + 1 := Nat.mod_eq_of_lt (by omega)
    have hsocket : (s.storeAt i v ⟨_, hlast⟩).sockets i =
        { s.sockets i with
          snRxWr := ((s.sockets i).snRxWr + 1) % (s.sockets i).receiveSize
          snRxRsr := (s.sockets i).snRxRsr + 1 } := by
      rw [storeAt_sockets, if_pos rfl, hrsr]
    rw [Chip.writeRxData, writeRxByte_of_size v hsize hlast]
    have hrest := ih (h.storeAt v (a := ⟨_, hlast⟩) hsize rfl) (by rw [hsocket]; simp only; omega)
    refine hrest.mono (fun t ht => ⟨ht.1, (fed_storeAt v hwr rfl).trans ht.2.1, ?_⟩)
    rw [ht.2.2, hsocket, List.length_cons]
    simp only [Nat.mod_add_mod, Nat.add_assoc, Nat.add_comm 1]

theorem takeIn_takeIn (k m : Nat) (pending : List Byte) (st : SocketState) :
    (st.takeIn k pending).takeIn m (pending.drop k) = st.takeIn (k + m) pending := by
  unfold SocketState.takeIn
  simp only [Nat.mod_add_mod, Nat.add_assoc, List.drop_drop]

theorem flushLoop_socket (fuel moved : Nat) {s : Chip} (h : Safe s)
    (hfuel : (s.sockets i).rxPending.length ≤ fuel) (hroom : (s.sockets i).snRxRsr < (s.sockets i).receiveSize) :
    Yields (s.flushLoop i fuel moved) (fun r => Safe r.1 ∧ Fed i s r.1 ∧
      ((r.1.sockets i).rxPending = [] ∨ r.1.rxFree i = 0) ∧
      ∃ k, (s.sockets i).snRxRsr + k < (s.sockets i).receiveSize ∧ k ≤ (s.sockets i).rxPending.length ∧
        r.1.sockets i = (s.sockets i).takeIn k (s.sockets i).rxPending) := by
  induction fuel generalizing s moved with
  | zero =>
    have hnil : (s.sockets i).rxPending = [] := List.eq_nil_of_length_eq_zero (Nat.le_zero.1 hfuel)
    exact yields_some.2 ⟨h, .refl i s, .inl hnil, 0, hroom, Nat.zero_le _, (h.takeIn_zero (by omega)).symm⟩
  | succ fuel ih =>
    rw [Chip.flushLoop]
    simp only
    split
    · next hstop =>
      exact yields_some.2 ⟨h, .refl i s, hstop, 0, hroom, Nat.zero_le _, (h.takeIn_zero (by omega)).symm⟩
    · next hgo =>
      rw [not_or] at hgo
      have hpos := List.length_pos_iff.2 hgo.1
      generalize hn : min (s.rxFree i) (s.sockets i).rxPending.length = n
      have hfree : (s.sockets i).snRxRsr + s.rxFree i < (s.sockets i).receiveSize := by
        have hne := hgo.2
        unfold rxFree at hne ⊢
        simp only at hne ⊢
        split at hne <;> split <;> omega
      have htake : ((s.sockets i).rxPending.take n).length = n := by rw [List.length_take]; omega
      refine (writeRxData_socket _ h (by rw [htake]; omega)).bind (fun t ht => ?_)
      obtain ⟨ht, hfed, hsocket⟩ := ht
      have hset : (t.setSocket i { t.sockets i with rxPending := (s.sockets i).rxPending.drop n }).sockets i =
          (s.sockets i).takeIn n (s.sockets i).rxPending := by
        rw [setSocket_sockets, if_pos rfl, hsocket, htake]
        rfl
      have hrest := ih (moved + n) (ht.setRxPending i ((s.sockets i).rxPending.drop n))
        (by rw [setSocket_sockets, if_pos rfl, List.length_drop]; omega)
        (by rw [hset]; exact (show (s.sockets i).snRxRsr + n < (s.sockets i).receiveSize by omega))
      refine hrest.mono (fun r hr => ?_)
      obtain ⟨hr, hfed', hend, k, hk, hlength, heq⟩ := hr
      rw [hset] at hk hlength heq
      replace hk : (s.sockets i).snRxRsr + n + k < (s.sockets i).receiveSize := hk
      replace hlength : k ≤ ((s.sockets i).rxPending.drop n).length := hlength
      rw [List.length_drop] at hlength
      refine ⟨hr, hfed.trans ((fed_setRxPending i t _).trans hfed'), hend, n + k, by omega, by omega, heq.trans ?_⟩
      exact takeIn_takeIn n k _ _

theorem flushTcpPending_socket (h : Safe s) (hroom : (s.sockets i).snRxRsr < (s.sockets i).receiveSize) :
    Yields (s.flushTcpPending i) (fun r => Safe r.1 ∧ Fed i s r.1 ∧
      ((r.1.sockets i).rxPending = [] ∨ r.1.rxFree i = 0) ∧
      ∃ k, (s.sockets i).snRxRsr + k < (s.sockets i).receiveSize ∧ k ≤ (s.sockets i).rxPending.length ∧
        r.1.sockets i = (s.sockets i).takeIn k (s.sockets i).rxPending) :=
  flushLoop_socket _ 0 h (Nat.le_refl _) hroom

/-- The socket has taken `data` in. -/
def TakesIn (i : Fin 4) (data : List Byte) (s t : Chip) : Prop :=
  ∃ k, (s.sockets i).snRxRsr + k < (s.sockets i).receiveSize ∧ k ≤ ((s.sockets i).rxPending ++ data).length ∧
    t.sockets i = (s.sockets i).takeIn k ((s.sockets i).rxPending ++ data)

theorem flushRaise_takesIn (h : Safe s) (hroom : (s.sockets i).snRxRsr < (s.sockets i).receiveSize) :
    Yields (s.flushRaise i) (fun t => Fed i s t ∧ TakesIn i [] s t) := by
  refine (flushTcpPending_socket h hroom).bind (fun r hr => ?_)
  obtain ⟨_, hfed, _, k, hk, hlength, heq⟩ := hr
  have htakes : TakesIn i [] s r.1 := by
    refine ⟨k, hk, ?_, ?_⟩
    · rw [List.append_nil]
      exact hlength
    · rw [List.append_nil]
      exact heq
  simp only [yields_some]
  split
  · refine ⟨hfed.trans (fed_raiseIr i _ _), ?_⟩
    obtain ⟨k, hk, hlength, heq⟩ := htakes
    exact ⟨k, hk, hlength, by rw [raiseIr_sockets]; exact heq⟩
  · exact ⟨hfed, htakes⟩

theorem ingestTcp_takesIn (h : Safe s) (hroom : (s.sockets i).snRxRsr < (s.sockets i).receiveSize) (data : List Byte) :
    Yields (s.ingestTcp i data) (fun t => Fed i s t ∧ TakesIn i data s t) := by
  refine (flushTcpPending_socket h hroom).bind (fun r hr => ?_)
  obtain ⟨hr, hfed, hend, k, hk, hlength, heq⟩ := hr
  simp only
  generalize hn : min (r.1.rxFree i) data.length = n
  have htake : (data.take n).length = n := by rw [List.length_take]; omega
  have hsize : (r.1.sockets i).receiveSize = (s.sockets i).receiveSize := by rw [heq]; rfl
  have hrsr : (r.1.sockets i).snRxRsr = (s.sockets i).snRxRsr + k := by rw [heq]; rfl
  have hfree : (r.1.sockets i).snRxRsr + n < (r.1.sockets i).receiveSize := by
    rcases Nat.eq_zero_or_pos n with hzero | hpos
    · omega
    · have hne : 0 < r.1.rxFree i := by omega
      have hle : n ≤ r.1.rxFree i := by omega
      unfold rxFree at hne hle
      simp only at hne hle
      split at hne <;> split at hle <;> omega
  refine (writeRxData_socket _ hr (by rw [htake]; exact hfree)).bind (fun t ht => ?_)
  obtain ⟨_, hfed', hsocket⟩ := ht
  rw [yields_some]
  refine ⟨hfed.trans (hfed'.trans (fed_setRxPending i t _)), k + n, by omega, ?_, ?_⟩
  · rw [List.length_append]
    omega
  rw [setSocket_sockets, if_pos rfl, hsocket, htake, heq]
  -- the data goes in only behind all that waited
  have hrest : (s.sockets i).rxPending.drop k ++ data.drop n = ((s.sockets i).rxPending ++ data).drop (k + n) := by
    rw [heq] at hend
    rcases hend with hnil | hfull
    · have hall : (s.sockets i).rxPending.drop k = [] := hnil
      have hk : k = (s.sockets i).rxPending.length := Nat.le_antisymm hlength (List.drop_eq_nil_iff.1 hall)
      rw [hall, hk, List.nil_append, ← List.drop_drop, List.drop_left]
    · have hzero : n = 0 := by omega
      rw [hzero, List.drop_zero, Nat.add_zero, List.drop_append_of_le_length hlength]
  unfold SocketState.takeIn
  simp only [Nat.mod_add_mod, Nat.add_assoc, hrest]

end

end Chip

end GSSquared.Uthernet
