/-
The chip and a guest that follows the protocol of the receive ring.
-/
import GSSquared.Uthernet.Receive

set_option linter.all false

namespace GSSquared.Uthernet

open Bits Partial

namespace Chip

def isDatagram (status : Byte) : Prop := status = Sr.udp ∨ status = Sr.ipRaw ∨ status = Sr.macRaw

instance (status : Byte) : Decidable (isDatagram status) :=
  inferInstanceAs (Decidable (status = Sr.udp ∨ status = Sr.ipRaw ∨ status = Sr.macRaw))

def Fits (status : Byte) : NetEvt → Prop
  | .rxTcp => ¬ isDatagram status
  | .rxUdp => status = Sr.udp
  | .ipRawRx => status = Sr.ipRaw
  | .status => False
  | .macRawRx | .sendDone | .none => True

instance (status : Byte) : ∀ evt, Decidable (Fits status evt)
  | .rxTcp => inferInstanceAs (Decidable (¬ isDatagram status))
  | .rxUdp => inferInstanceAs (Decidable (status = Sr.udp))
  | .ipRawRx => inferInstanceAs (Decidable (status = Sr.ipRaw))
  | .status => isFalse id
  | .macRawRx | .sendDone | .none => isTrue trivial

def packetFor (status : Byte) (ev : NetEvent) : List Byte :=
  match ev.evt with
  | .rxUdp => ev.srcIp.bytes ++ be16Bytes ev.srcPort ++ be16Bytes ev.payload.length ++ ev.payload
  | .ipRawRx => ev.srcIp.bytes ++ be16Bytes ev.payload.length ++ ev.payload
  | .macRawRx =>
    if status = Sr.macRaw then be16Bytes (ev.payload.length + 2) ++ ev.payload
    else
      let payload := ev.payload.drop (14 + ((ev.payload.getD 14 0).toNat &&& 0x0F) * 4)
      (ev.payload.drop 26).take 4 ++ be16Bytes payload.length ++ payload
  | _ => []

/-- What a socket has accepted of an event that led from `s` to `t`. -/
def accepts (i : Fin 4) (s t : Chip) (ev : NetEvent) : List (List Byte) :=
  if ev.evt = .rxTcp then
    if ev.sock = i ∧ ev.gen = (s.sockets i).gen then [ev.payload] else []
  else if t.stored i = s.stored i then []
  else [packetFor (s.sockets i).status ev]

/-- The socket has taken `data` in. -/
structure Gains (i : Fin 4) (before l got : List Byte) (taken : Nat) (s : Chip) (data : List Byte) (t : Chip) : Prop
    where
  safe : Safe t
  status : (t.sockets i).status = (s.sockets i).status
  headerSize : (t.sockets i).headerSize = (s.sockets i).headerSize
  receiveSize : (t.sockets i).receiveSize = (s.sockets i).receiveSize
  ring : ∃ l', Ring i before l' got taken t ∧ l' ++ (t.sockets i).rxPending = l ++ (s.sockets i).rxPending ++ data
  whole : isDatagram (s.sockets i).status → (s.sockets i).rxPending = [] → (t.sockets i).rxPending = []

section

variable {s t : Chip} {i j : Fin 4} {before l got : List Byte} {taken : Nat} {data : List Byte}

theorem Ring.gains_apart (h : Ring i before l got taken s) (ht : Safe t) (hapart : Apart i s t) :
    Gains i before l got taken s [] t := by
  obtain ⟨base, size, hsocket⟩ := hapart.socket
  refine ⟨ht, ?_, ?_, ?_, ⟨l, h.apart hapart, ?_⟩, ?_⟩
  all_goals rw [hsocket]
  · exact (List.append_nil _).symm
  · exact fun _ hnil => hnil

theorem Fed.gains (hfed : Fed i s t) (ht : Safe t)
    (hring : ∃ l', Ring i before l' got taken t ∧
      l' ++ (t.sockets i).rxPending = l ++ (s.sockets i).rxPending ++ data)
    (hwhole : isDatagram (s.sockets i).status → (s.sockets i).rxPending = [] → (t.sockets i).rxPending = []) :
    Gains i before l got taken s data t := by
  obtain ⟨wr, rsr, pending, hown⟩ := hfed.own
  refine ⟨ht, ?_, ?_, ?_, hring, hwhole⟩
  all_goals rw [hown]

theorem Gains.trans {u : Chip} {data' l' : List Byte} {taken' : Nat} (h : Gains i before l got taken s data t)
    (hl : l' ++ (t.sockets i).rxPending = l ++ (s.sockets i).rxPending ++ data)
    (h' : Gains i before l' got taken' t data' u) : Gains i before l got taken' s (data ++ data') u := by
  obtain ⟨l'', hring, heq⟩ := h'.ring
  refine
    { safe := h'.safe
      status := h'.status.trans h.status
      headerSize := h'.headerSize.trans h.headerSize
      receiveSize := h'.receiveSize.trans h.receiveSize
      ring := ⟨l'', hring, by rw [heq, hl, List.append_assoc]⟩
      whole := fun hdatagram hnil => h'.whole ?_ (h.whole hdatagram hnil) }
  rw [h.status]
  exact hdatagram

theorem Gains.apart {u : Chip} (h : Gains i before l got taken s data t) (hu : Safe u) (hapart : Apart i t u) :
    Gains i before l got taken s data u := by
  obtain ⟨l', hring, heq⟩ := h.ring
  exact List.append_nil data ▸ h.trans heq (hring.gains_apart hu hapart)

theorem Gains.raiseIr (h : Gains i before l got taken s data t) (j : Fin 4) (bits : Byte) :
    Gains i before l got taken s data (t.raiseIr j bits) :=
  h.apart (h.safe.raiseIr j bits) (apart_raiseIr h.safe i j bits)

theorem Ring.gains_refl (h : Ring i before l got taken s) (hs : Safe s) : Gains i before l got taken s [] s :=
  h.gains_apart hs (.refl i s)

theorem Ring.stored_eq_iff {l' : List Byte} (h : Ring i before l got taken s) (h' : Ring i before l' got taken t) :
    t.stored i = s.stored i ↔ l' = l := by
  rw [h.kept, h'.kept]
  exact List.append_right_inj before

theorem Ring.gains_fed (h : Ring i before l got taken s) (hs : Safe s) (hij : i ≠ j)
    {o : Option Chip} (ho : Yields o (fun t => Safe t ∧ Fed j s t)) :
    Yields o (fun t => Gains i before l got taken s [] t ∧ t.stored i = s.stored i) :=
  ho.mono (fun _ ht => ⟨h.gains_apart ht.1 (ht.2.apart hs hij), ht.2.stored i hij⟩)

theorem Ring.gains_packet (h : Ring i before l got taken s) (hs : Safe s) (hnil : (s.sockets i).rxPending = [])
    {header : List Byte} (hheader : header.length = (s.sockets i).headerSize) (hne : header ≠ [])
    (payload : List Byte) :
    Yields (s.storePacket i header payload)
      (fun t => Gains i before l got taken s (if t.stored i = s.stored i then [] else header ++ payload) t) := by
  refine (h.storePacket hs hheader payload).mono (fun t ht => ?_)
  obtain ⟨ht, hfed, hpending, hring⟩ := ht
  have hnil' : (t.sockets i).rxPending = [] := hpending.trans hnil
  rcases hring with hring | hring
  · rw [if_pos ((h.stored_eq_iff hring).2 rfl)]
    exact hfed.gains ht ⟨l, hring, by rw [hpending, List.append_nil]⟩ (fun _ _ => hnil')
  · have hgrown : ¬ t.stored i = s.stored i := by
      rw [h.stored_eq_iff hring]
      simp [hne]
    rw [if_neg hgrown]
    exact hfed.gains ht ⟨_, hring, by rw [hnil, hnil', List.append_nil, List.append_nil]⟩ (fun _ _ => hnil')

theorem Ring.gains_accepts (h : Ring i before l got taken s) (hs : Safe s) (hnil : (s.sockets i).rxPending = [])
    {ev : NetEvent} (hev : ev.evt ≠ .rxTcp) {header payload : List Byte}
    (hpacket : packetFor (s.sockets i).status ev = header ++ payload)
    (hheader : header.length = (s.sockets i).headerSize) (hne : header ≠ []) :
    Yields (s.storePacket i header payload)
      (fun t => Gains i before l got taken s (accepts i s t ev).flatten t) := by
  refine (h.gains_packet hs hnil hheader hne payload).mono (fun t ht => ?_)
  rw [accepts, if_neg hev]
  by_cases hsame : t.stored i = s.stored i
  · rw [if_pos hsame] at ht ⊢
    exact ht
  · rw [if_neg hsame] at ht ⊢
    rw [hpacket, List.flatten_singleton]
    exact ht

theorem length_bytes (ip : Ip) : ip.bytes.length = 4 := rfl

theorem length_be16Bytes (n : Nat) : (be16Bytes n).length = 2 := rfl

theorem accepts_of_stored {ev : NetEvent} (hev : ev.evt = .rxTcp → ¬ (ev.sock = i ∧ ev.gen = (s.sockets i).gen))
    (hstored : t.stored i = s.stored i) : accepts i s t ev = [] := by
  unfold accepts
  by_cases hev' : ev.evt = .rxTcp
  · rw [if_pos hev', if_neg (hev hev')]
  · rw [if_neg hev', if_pos hstored]

theorem ipRawSocket_eq {toUs broadcast : Bool} {frame : List Byte} {k : Fin 4}
    (h : s.ipRawSocket toUs broadcast frame = some k) : (s.sockets k).status = Sr.ipRaw ∧ 34 ≤ frame.length := by
  unfold ipRawSocket at h
  split at h
  · next hframe =>
    have hfound := List.find?_some h
    simp only [Bool.and_eq_true, beq_iff_eq, decide_eq_true_eq] at hfound hframe
    exact ⟨hfound.1, hframe.1.2⟩
  · cases h

theorem Ring.gains_macraw (h : Ring i before l got taken s) (hs : Safe s)
    (hheader : (s.sockets i).headerSize = headerSizeOf (s.sockets i).status)
    (hnil : isDatagram (s.sockets i).status → (s.sockets i).rxPending = []) {ev : NetEvent} (hev : ev.evt = .macRawRx) :
    Yields (s.ingestMacraw ev.payload) (fun t => Gains i before l got taken s (accepts i s t ev).flatten t) := by
  have hne : ev.evt ≠ .rxTcp := by rw [hev]; nofun
  -- what goes to another socket, or to none, is not accepted here
  have hnone {o : Option Chip} (ho : Yields o (fun t => Gains i before l got taken s [] t ∧ t.stored i = s.stored i)) :
      Yields o (fun t => Gains i before l got taken s (accepts i s t ev).flatten t) :=
    ho.mono (fun t ht => by
      rw [accepts_of_stored (fun hev' => absurd hev' hne) ht.2]
      exact ht.1)
  have hsame : Yields (some s) (fun t => Gains i before l got taken s (accepts i s t ev).flatten t) :=
    hnone (yields_some.2 ⟨h.gains_refl hs, rfl⟩)
  have hmacraw (toUs broadcast : Bool) : Yields (s.storeMacraw toUs broadcast ev.payload)
      (fun t => Gains i before l got taken s (accepts i s t ev).flatten t) := by
    unfold Chip.storeMacraw
    split
    · exact hsame
    · next hstatus =>
      rw [not_not] at hstatus
      split
      · exact hsame
      · by_cases hi : i = 0
        · subst hi
          refine h.gains_accepts hs (hnil (.inr (.inr hstatus))) hne ?_ ?_ (by simp [be16Bytes])
          · simp only [packetFor, hev, hstatus, if_true]
          · rw [hheader, hstatus]
            rfl
        · exact hnone (h.gains_fed hs hi (hs.storePacket 0 _ _))
  unfold Chip.ingestMacraw
  split
  · exact hsame
  simp only
  split
  · next k hk =>
    split
    · by_cases hi : i = k
      · subst hi
        obtain ⟨hstatus, hlen⟩ := ipRawSocket_eq hk
        refine h.gains_accepts hs (hnil (.inr (.inl hstatus))) hne ?_ ?_ (by simp [be16Bytes])
        · rw [packetFor, hev, hstatus]
          exact if_neg (by decide)
        · rw [List.length_append, List.length_take, List.length_drop, length_be16Bytes, hheader, hstatus,
            Nat.min_eq_left (by omega)]
          rfl
      · exact hnone (h.gains_fed hs hi (hs.storePacket k _ _))
    · exact hmacraw _ _
  · exact hmacraw _ _

theorem Gains.accepts {ev : NetEvent} (h : Gains i before l got taken s [] t) (hstored : t.stored i = s.stored i)
    (hev : ev.evt = .rxTcp → ¬ (ev.sock = i ∧ ev.gen = (s.sockets i).gen)) :
    Gains i before l got taken s (accepts i s t ev).flatten t := by
  rw [accepts_of_stored hev hstored]
  exact h

theorem Ring.gains_own (h : Ring i before l got taken s) (hs : Safe s)
    (hheader : (s.sockets i).headerSize = headerSizeOf (s.sockets i).status)
    (hnil : isDatagram (s.sockets i).status → (s.sockets i).rxPending = []) {ev : NetEvent} (hi : ev.sock = i.val)
    (hgen : ev.evt ≠ .macRawRx → ev.gen = (s.sockets i).gen)
    (hfits : ev.gen = (s.sockets i).gen → Fits (s.sockets i).status ev.evt) :
    Yields (s.deliver i ev) (fun t => Gains i before l got taken s (accepts i s t ev).flatten t) := by
  unfold deliver
  cases hevt : ev.evt with
  | macRawRx => exact h.gains_macraw hs hheader hnil hevt
  | none =>
    exact yields_some.2 ((h.gains_refl hs).accepts rfl (by rw [hevt]; rintro ⟨⟩))
  | sendDone =>
    have hstored : (s.raiseIr i (if ev.cause = .failed then Ir.timeout else Ir.sendOk)).stored i = s.stored i := by
      rw [stored, raiseIr_stores, stored]
    exact yields_some.2 (((h.gains_refl hs).raiseIr i _).accepts hstored (by rw [hevt]; rintro ⟨⟩))
  | status =>
    have hstatus := hfits (hgen (by rw [hevt]; decide))
    rw [hevt] at hstatus
    exact hstatus.elim
  | rxTcp =>
    have hgen := hgen (by rw [hevt]; decide)
    have hstatus := hfits hgen
    rw [hevt] at hstatus
    have hdata : ∀ u, Chip.accepts i s u ev = [ev.payload] := fun u => by
      rw [Chip.accepts, if_pos hevt, if_pos ⟨hi, hgen⟩]
    refine (h.ingestTcp hs ev.payload).bind (fun t ht => ?_)
    have hgains : Gains i before l got taken s ev.payload t :=
      ht.2.1.gains ht.1 ht.2.2 (fun hdatagram => absurd hdatagram hstatus)
    rw [yields_some, hdata, List.flatten_singleton]
    split
    · exact hgains.raiseIr i _
    · exact hgains
  | rxUdp =>
    have hstatus := hfits (hgen (by rw [hevt]; decide))
    rw [hevt] at hstatus
    refine h.gains_accepts hs (hnil (.inl hstatus)) (by rw [hevt]; decide) ?_ ?_ (by simp [be16Bytes])
    · simp only [packetFor, hevt]
    · simp only [List.length_append, length_bytes, length_be16Bytes]
      rw [hheader, show (s.sockets i).status = Sr.udp from hstatus]
      rfl
  | ipRawRx =>
    have hstatus := hfits (hgen (by rw [hevt]; decide))
    rw [hevt] at hstatus
    refine h.gains_accepts hs (hnil (.inr (.inl hstatus))) (by rw [hevt]; decide) ?_ ?_ (by simp [be16Bytes])
    · simp only [packetFor, hevt]
    · simp only [List.length_append, length_bytes, length_be16Bytes]
      rw [hheader, show (s.sockets i).status = Sr.ipRaw from hstatus]
      rfl

theorem Ring.gains_other (h : Ring i before l got taken s) (hs : Safe s)
    (hheader : (s.sockets i).headerSize = headerSizeOf (s.sockets i).status)
    (hnil : isDatagram (s.sockets i).status → (s.sockets i).rxPending = []) {ev : NetEvent} (hj : ev.sock = j.val)
    (hij : i ≠ j) :
    Yields (s.deliver j ev) (fun t => Gains i before l got taken s (accepts i s t ev).flatten t) := by
  have hev : ev.evt = .rxTcp → ¬ (ev.sock = i ∧ ev.gen = (s.sockets i).gen) :=
    fun _ hown => hij (Fin.ext (hown.1.symm.trans hj))
  have hlocal {t : Chip} (ht : Safe t) (hl : Local j s t) :
      Gains i before l got taken s (Chip.accepts i s t ev).flatten t :=
    (h.gains_apart ht (hl.apart hs hij)).accepts (by rw [stored, hl.stores, stored]) hev
  have hpacket (header payload : List Byte) : Yields (s.storePacket j header payload)
      (fun t => Gains i before l got taken s (Chip.accepts i s t ev).flatten t) :=
    (h.gains_fed hs hij (hs.storePacket j header payload)).mono (fun t ht => ht.1.accepts ht.2 hev)
  unfold deliver
  cases hevt : ev.evt with
  | macRawRx => exact h.gains_macraw hs hheader hnil hevt
  | none => exact yields_some.2 (hlocal hs (.refl j s))
  | sendDone => exact yields_some.2 (hlocal (hs.raiseIr j _) (local_raiseIr j _ s))
  | status => exact yields_some.2 (hlocal (hs.applyStatus j ev) (local_applyStatus j ev s))
  | rxUdp => exact hpacket _ _
  | ipRawRx => exact hpacket _ _
  | rxTcp =>
    refine (h.gains_fed hs hij (hs.ingestTcp j ev.payload)).bind (fun t ht => ?_)
    rw [yields_some]
    split
    · refine (ht.1.raiseIr j _).accepts ?_ hev
      rw [stored, raiseIr_stores]
      exact ht.2
    · exact ht.1.accepts ht.2 hev

theorem Ring.gains_event (h : Ring i before l got taken s) (hs : Safe s)
    (hheader : (s.sockets i).headerSize = headerSizeOf (s.sockets i).status)
    (hnil : isDatagram (s.sockets i).status → (s.sockets i).rxPending = []) {ev : NetEvent}
    (hfits : ev.sock = i.val → ev.gen = (s.sockets i).gen → Fits (s.sockets i).status ev.evt) :
    Yields (s.applyEvent ev) (fun t => Gains i before l got taken s (accepts i s t ev).flatten t) := by
  by_cases hsock : ev.sock < 4
  · obtain ⟨j, hj⟩ : ∃ j : Fin 4, ev.sock = j.val := ⟨⟨ev.sock, hsock⟩, rfl⟩
    by_cases hstale : ev.evt ≠ .macRawRx ∧ ev.gen ≠ (s.sockets j).gen
    · rw [s.applyEvent_of_stale j hj hstale, yields_some]
      refine (h.gains_refl hs).accepts rfl (fun _ hown => hstale.2 ?_)
      rw [← Fin.ext (hown.1.symm.trans hj)]
      exact hown.2
    · rw [s.applyEvent_of_live j hj hstale]
      by_cases hij : i = j
      · subst hij
        exact h.gains_own hs hheader hnil hj (fun hne => by_contra (fun hgen => hstale ⟨hne, hgen⟩)) (hfits hj)
      · exact h.gains_other hs hheader hnil hj hij
  · rw [s.applyEvent_of_ge hsock, yields_some]
    exact (h.gains_refl hs).accepts rfl (fun _ hown => hsock (hown.1 ▸ i.isLt))

theorem flushRaise_nil (hnil : (s.sockets i).rxPending = []) : s.flushRaise i = some s := by
  rw [Chip.flushRaise, Chip.flushTcpPending, hnil]
  rfl

theorem Ring.gains_flushRaise (h : Ring i before l got taken s) (hs : Safe s) (j : Fin 4) :
    Yields (s.flushRaise j) (Gains i before l got taken s []) := by
  by_cases hij : i = j
  · subst hij
    by_cases hnil : (s.sockets i).rxPending = []
    · rw [flushRaise_nil hnil]
      exact yields_some.2 (h.gains_refl hs)
    · refine (h.flushRaise hs).mono (fun t ht => ht.2.1.gains ht.1 ?_ (fun _ hnil' => absurd hnil' hnil))
      rw [List.append_nil]
      exact ht.2.2
  · exact (h.gains_fed hs hij (hs.flushRaise j)).mono (fun t ht => ht.1)

theorem Ring.gains_flushAll (h : Ring i before l got taken s) (hs : Safe s) :
    Yields s.flushAll (Gains i before l got taken s []) := by
  refine yields_foldlM (fun t j _ ht => ?_) (h.gains_refl hs)
  split
  · exact yields_some.2 ht
  · obtain ⟨l', hring, heq⟩ := ht.ring
    exact (hring.gains_flushRaise ht.safe j).mono (fun u hu => ht.trans heq hu)

/-- The next bytes that the guest reads, from `RX_RD` on. -/
def readNext (i : Fin 4) (n : Nat) (s : Chip) : List Byte :=
  (List.range n).map
    (fun k => s.readAt ((s.sockets i).receiveBase + (s.rxRd i + k) % (s.sockets i).receiveSize))

/-- `RX_RD` stepped over what has been read. -/
def stepOver (i : Fin 4) (n : Nat) (s : Chip) : Option Chip := do
  let rd := (s.rxRd i + n) % 0x10000
  let s ← s.writeAt (reg i 0x28) (getIbyte rd 8) false
  s.writeAt (reg i 0x29) (getIbyte rd 0) false

def issueRecv (i : Fin 4) (s : Chip) : Option Chip := s.writeAt (reg i 0x01) Cr.recv false

theorem reg_socket (i : Fin 4) (r : Fin 0x100) : 0x400 ≤ (reg i r).val ∧ (reg i r).val ≤ 0x7FF := by
  simp only [reg]
  omega

theorem writeAt_reg (i : Fin 4) (r : Fin 0x100) (value : Byte) (bound : Bool) :
    s.writeAt (reg i r) value bound = s.writeSocketReg (reg i r) (reg_socket i r) value bound := by
  have h := reg_socket i r
  unfold Chip.writeAt
  rw [if_neg (by omega), if_neg (by omega), if_neg (by omega), if_neg (by omega), dif_neg (by omega), dif_pos h]

theorem writeAt_rd (i : Fin 4) {r : Fin 0x100} (hr : r = 0x28 ∨ r = 0x29) (value : Byte) (bound : Bool) :
    s.writeAt (reg i r) value bound = some (s.setMem (reg i r) value) := by
  rw [writeAt_reg]
  rcases hr with rfl | rfl <;> match i with | 0 | 1 | 2 | 3 => rfl

theorem issueRecv_eq (i : Fin 4) (s : Chip) :
    s.issueRecv i = (do
      let t ← s.receive i
      some (t.setMem (reg i 0x01) 0)) := by
  rw [issueRecv, writeAt_reg]
  match i with | 0 | 1 | 2 | 3 => rfl

theorem stepOver_eq (i : Fin 4) (n : Nat) (s : Chip) :
    s.stepOver i n =
      some ((s.setMem (reg i 0x28) (getIbyte ((s.rxRd i + n) % 0x10000) 8)).setMem (reg i 0x29)
        (getIbyte ((s.rxRd i + n) % 0x10000) 0)) := by
  rw [stepOver, writeAt_rd i (.inl rfl)]
  exact writeAt_rd i (.inr rfl) _ _

theorem getIbyte_be16 {v : Nat} (h : v < 0x10000) : (getIbyte v 8).toNat * 0x100 + (getIbyte v 0).toNat = v := by
  simp only [getIbyte, BitVec.toNat_ofNat, Nat.shiftRight_eq_div_pow]
  omega

theorem rxRd_stepOver (i : Fin 4) (n : Nat) (s : Chip) :
    ((s.setMem (reg i 0x28) (getIbyte ((s.rxRd i + n) % 0x10000) 8)).setMem (reg i 0x29)
      (getIbyte ((s.rxRd i + n) % 0x10000) 0)).rxRd i = (s.rxRd i + n) % 0x10000 := by
  have hne : reg i 0x28 ≠ reg i 0x29 := fun heq => absurd (reg_inj.1 heq).2 (by decide)
  rw [rxRd, be16, setMem_memory, if_neg hne, setMem_memory, if_pos rfl, setMem_memory, if_pos rfl,
    getIbyte_be16 (Nat.mod_lt _ (by decide))]

def Regular (size : Nat) : Prop := size = 0 ∨ size.isPowerOfTwo

theorem dvd_wrap {size : Nat} (hsize : size.isPowerOfTwo) (hle : size ≤ 0x10000) : size ∣ 0x10000 := by
  obtain ⟨p, rfl⟩ := hsize
  exact Nat.pow_dvd_pow 2 ((Nat.pow_le_pow_iff_right (by decide)).1 (hle.trans_eq (by decide : 0x10000 = 2 ^ 16)))

theorem mod_wrap_add {size : Nat} (hdvd : size ∣ 0x10000) (m k : Nat) : (m % 0x10000 + k) % size = (m + k) % size := by
  rw [Nat.add_mod, Nat.mod_mod_of_dvd _ hdvd, ← Nat.add_mod]

theorem readAt_window {a : Nat} (ha : rxBase ≤ a) : s.readAt a = s.byteAt a := by
  have hmem : rxBase = 0x6000 := rfl
  unfold readAt
  rw [if_neg (by omega), if_neg (by omega), dif_neg (by omega)]
  rfl

theorem Ring.regular (h : Ring i before l got taken s) (hs : Safe s) (hsize : Regular (s.sockets i).receiveSize)
    (hrsr : 0 < (s.sockets i).snRxRsr) :
    0 < (s.sockets i).receiveSize ∧ (s.sockets i).receiveSize ∣ 0x10000 := by
  have hcount := h.count
  have hinside := hs.inside i
  have hmem : rxBase = 0x6000 ∧ memSize = 0x8000 := ⟨rfl, rfl⟩
  have hpos : 0 < (s.sockets i).receiveSize := by
    rcases h.room with hroom | rfl
    · omega
    · simp only [List.length_nil] at hcount
      omega
  exact ⟨hpos, dvd_wrap (hsize.resolve_left (by omega)) (by omega)⟩

theorem Ring.readNext_eq (h : Ring i before l got taken s) (hs : Safe s)
    (hsize : Regular (s.sockets i).receiveSize) {n : Nat} (hn : taken + n ≤ (s.sockets i).snRxRsr) :
    s.readNext i n = (l.drop got.length).take n := by
  have hcount := h.count
  have hstepped := h.stepped
  have hinside := hs.inside i
  rw [← h.lies.read (Nat.sub_le _ _) (by omega)]
  refine List.map_congr_left (fun k hk => ?_)
  have hk := List.mem_range.1 hk
  obtain ⟨hpos, hdvd⟩ := h.regular hs hsize (by omega)
  rw [readAt_window (by omega), h.rd, mod_wrap_add hdvd]

theorem Ring.stepOver (h : Ring i before l got taken s) (hs : Safe s) (hsize : Regular (s.sockets i).receiveSize)
    {n : Nat} (hn : taken + n ≤ (s.sockets i).snRxRsr) :
    Yields (s.stepOver i n) (Gains i before l (got ++ s.readNext i n) (taken + n) s []) := by
  have hcount := h.count
  have hstepped := h.stepped
  have hle : got.length + n ≤ l.length := by omega
  have hlen : (s.readNext i n).length = n := by rw [readNext, List.length_map, List.length_range]
  rw [stepOver_eq, yields_some]
  refine ⟨(hs.setMem _ _).setMem _ _, rfl, rfl, rfl, ⟨l, ?_, (List.append_nil _).symm⟩, fun _ hnil => hnil⟩
  have hinside := hs.inside i
  have hbyte (a : Nat) (ha : rxBase ≤ a) (hlt : a < memSize) (v w : Byte) :
      ((s.setMem (reg i 0x28) v).setMem (reg i 0x29) w).byteAt a = s.byteAt a := by
    have h28 := reg_lt i 0x28
    have h29 := reg_lt i 0x29
    simp only [byteAt, setMem_memory, Fin.ext_iff, Nat.mod_eq_of_lt hlt]
    rw [if_neg (by omega), if_neg (by omega)]
  refine
    { kept := h.kept
      wr := h.wr
      rd := ?_
      stepped := by rw [List.length_append, hlen]; omega
      count := by rw [List.length_append, hlen]; simp only [setMem_sockets]; omega
      inOrder := ?_
      room := h.room
      lies := ?_ }
  · rw [rxRd_stepOver, h.rd, List.length_append, hlen]
    omega
  · rw [h.readNext_eq hs hsize hn]
    obtain ⟨rest, rfl⟩ := h.inOrder
    rw [List.drop_left]
    exact (List.prefix_append_right_inj got).2 (List.take_prefix n rest)
  · rw [List.length_append, hlen, show got.length + n - (taken + n) = got.length - taken by omega]
    rcases Nat.eq_zero_or_pos (s.sockets i).receiveSize with hzero | hpos
    · have hl : l = [] := h.room.resolve_left (by omega)
      exact Circular.lies_of_length_le (by rw [hl]; exact Nat.zero_le _)
    · exact h.lies.congr hpos (fun k hk => hbyte _ (by omega) (by omega) _ _)

theorem Ring.updateRsr (h : Ring i before l got taken s) (hs : Safe s) (hsize : Regular (s.sockets i).receiveSize) :
    Ring i before l got 0 (s.updateRsr i) ∧ s.rsr i = l.length - got.length := by
  have hcount := h.count
  have hstepped := h.stepped
  have hprefix := h.inOrder.length_le
  have hinside := hs.inside i
  have hmem : rxBase = 0x6000 ∧ memSize = 0x8000 := ⟨rfl, rfl⟩
  have hrsr : s.rsr i = l.length - got.length := by
    unfold rsr
    rcases hsize with hzero | hpow
    · have hl : l = [] := h.room.resolve_left (by omega)
      rw [if_pos hzero, hl]
      simp
    · have hdvd := dvd_wrap hpow (by omega)
      have hroom : l.length - got.length < (s.sockets i).receiveSize := by
        rcases h.room with hroom | rfl
        · omega
        · simp only [List.length_nil, Nat.zero_sub]
          exact Nat.pos_of_isPowerOfTwo hpow
      obtain ⟨p, hp⟩ := hpow
      rw [if_neg (by rw [hp]; exact Nat.ne_of_gt (Nat.two_pow_pos p)), h.wr, h.rd]
      rw [hp] at hroom hdvd ⊢
      refine present_eq hroom ?_
      rw [Nat.mod_mod, mod_wrap_add hdvd, Nat.add_sub_cancel' hprefix]
  refine ⟨?_, hrsr⟩
  have hsocket : (s.updateRsr i).sockets i = { s.sockets i with snRxRsr := s.rsr i } := by
    rw [updateRsr_sockets, if_pos rfl]
  refine
    { kept := h.kept
      wr := by rw [hsocket]; exact h.wr
      rd := h.rd
      stepped := Nat.zero_le _
      count := by rw [hsocket]; simp only; omega
      inOrder := h.inOrder
      room := ?_
      lies := ?_ }
  · rw [hsocket]
    rcases h.room with hroom | hnil
    · exact .inl (by simp only; omega)
    · exact .inr hnil
  · rw [hsocket]
    exact h.lies.mono (by omega)

theorem Gains.ofWorker {worker : NetWorker} (h : Gains i before l got taken { s with worker := worker } data t) :
    Gains i before l got taken s data t :=
  ⟨h.safe, h.status, h.headerSize, h.receiveSize, h.ring, h.whole⟩

theorem Ring.gains_receive (h : Ring i before l got taken s) (hs : Safe s)
    (hsize : Regular (s.sockets i).receiveSize) :
    Yields (s.receive i) (Gains i before l got 0 s []) := by
  have hcounted := (h.updateRsr hs hsize).1
  have hcounted' : Gains i before l got 0 s [] (s.updateRsr i) := by
    refine ⟨hs.updateRsr i, ?_, ?_, ?_, ⟨l, hcounted, ?_⟩, ?_⟩
    all_goals rw [updateRsr_sockets, if_pos rfl]
    · exact (List.append_nil _).symm
    · exact fun _ hnil => hnil
  have hpending : l ++ ((s.updateRsr i).sockets i).rxPending = l ++ (s.sockets i).rxPending ++ [] := by
    rw [updateRsr_sockets, if_pos rfl, List.append_nil]
  have hsafe := hs.updateRsr i
  unfold Chip.receive
  simp only
  split
  · have hring := hcounted.apart (apart_withWorker i _ ((s.updateRsr i).worker.addRxCredit i
      ((s.sockets i).snRxRsr - ((s.updateRsr i).sockets i).snRxRsr)))
    exact (hring.gains_flushRaise (hsafe.withWorker _) i).mono (fun t ht => hcounted'.trans hpending ht.ofWorker)
  · exact (hcounted.gains_flushRaise hsafe i).mono (fun t ht => hcounted'.trans hpending ht)

theorem Ring.gains_issueRecv (h : Ring i before l got taken s) (hs : Safe s)
    (hsize : Regular (s.sockets i).receiveSize) : Yields (s.issueRecv i) (Gains i before l got 0 s []) := by
  rw [issueRecv_eq]
  refine (h.gains_receive hs hsize).bind (fun t ht => yields_some.2 ?_)
  exact ht.apart (ht.safe.setMem _ _) (apart_setMem ht.safe (ht.safe.clear_reg (.inr (by decide))) _)

theorem Ring.gains_issueRecv_other (h : Ring i before l got taken s) (hs : Safe s) (hij : i ≠ j) :
    Yields (s.issueRecv j) (Gains i before l got taken s []) := by
  rw [issueRecv_eq]
  refine (hs.handleCommand_apart hij Cr.recv false).bind (fun t ht => yields_some.2 ?_)
  exact (h.gains_apart ht.1 ht.2).apart (ht.1.setMem _ _) (apart_setMem ht.1 (ht.1.clear_reg (.inl hij.symm)) _)

theorem Ring.gains_stepOver_other (h : Ring i before l got taken s) (hs : Safe s) (hij : i ≠ j) (n : Nat) :
    Yields (s.stepOver j n) (Gains i before l got taken s []) := by
  rw [stepOver_eq, yields_some]
  refine h.gains_apart ((hs.setMem _ _).setMem _ _) (Local.apart ?_ hs hij)
  exact (local_setReg j 0x28 _ s).trans (local_setReg j 0x29 _ _)

def governing : List Byte := [Cr.open', Cr.listen, Cr.connect, Cr.discon, Cr.close, Cr.recv]

/-- A write that resets nothing, resizes nothing, and leaves a socket's connection, its read
pointer and its window alone. -/
def Spares (i : Fin 4) (s : Chip) (address : Nat) (value : Byte) : Prop :=
  ¬ (address = 0x0000 ∧ value &&& 0x80 ≠ 0) ∧ address ≠ 0x001A ∧ address ≠ reg i 0x28 ∧ address ≠ reg i 0x29 ∧
    (address = reg i 0x01 → value ∉ governing) ∧
    (address < (s.sockets i).receiveBase ∨ (s.sockets i).receiveBase + (s.sockets i).receiveSize ≤ address)

theorem lawfulBEq_byte : LawfulBEq Byte := inferInstance

attribute [local instance] lawfulBEq_byte

instance (address : Nat) (value : Byte) : Decidable (Spares i s address value) := by
  unfold Spares
  infer_instance

theorem Safe.sendData_apart (h : Safe s) (i : Fin 4) :
    Yields (s.sendData i) (fun t => Safe t ∧ Apart i s t) := by
  unfold Chip.sendData
  split
  · exact yields_some.2 ⟨h, .refl i s⟩
  · rw [h.gather_eq i]
    refine yields_some.2 ⟨(h.setMems _).post _, ?_⟩
    have hfirst := apart_setMem h (h.clear_reg (.inr (by decide))) (i := i) (a := reg i 0x22) (v := s.memory (reg i 0x24))
    have hsafe := h.setMem (reg i 0x22) (s.memory (reg i 0x24))
    have hsecond := apart_setMem hsafe (hsafe.clear_reg (.inr (by decide))) (i := i) (a := reg i 0x23)
      (v := s.memory (reg i 0x25))
    exact (hfirst.trans hsecond).trans (apart_withWorker i _ _)

theorem Safe.handleCommand_spares (h : Safe s) {cmd : Byte} (hcmd : cmd ∉ governing) (bound : Bool) :
    Yields (s.handleCommand i cmd bound) (fun t => Safe t ∧ Apart i s t) := by
  simp only [governing, List.mem_cons, List.not_mem_nil, or_false, not_or] at hcmd
  obtain ⟨hopen, hlisten, hconnect, hdiscon, hclose, hrecv⟩ := hcmd
  unfold Chip.handleCommand
  simp only
  rw [if_neg hopen, if_neg hlisten, if_neg hconnect, if_neg hdiscon, if_neg hclose]
  split
  · exact h.sendData_apart i
  split
  · rw [yields_some]
    split
    · exact ⟨h.raiseIr i _, apart_raiseIr h i i _⟩
    · exact ⟨h, .refl i s⟩
  exact yields_some.2 ⟨h, .refl i s⟩

theorem Safe.writeAt_spares (h : Safe s) {address : Nat} {value : Byte} (hspares : Spares i s address value)
    (bound : Bool) : Yields (s.writeAt address value bound) (fun t => Safe t ∧ Apart i s t) := by
  obtain ⟨hreset, hsizes, h28, h29, hcmd, hwindow⟩ := hspares
  have hset (a : Index) (ha : a.val = address) (v : Byte) : Safe (s.setMem a v) ∧ Apart i s (s.setMem a v) := by
    refine ⟨h.setMem a v, apart_setMem h ⟨?_, ?_, ha ▸ hwindow⟩ v⟩
    · exact fun heq => h28 (ha ▸ congrArg Fin.val heq)
    · exact fun heq => h29 (ha ▸ congrArg Fin.val heq)
  unfold Chip.writeAt
  split
  · next hzero =>
    rw [yields_some, Chip.writeMode, if_neg (fun hbit => hreset ⟨hzero, hbit⟩)]
    exact ⟨h.of_eq rfl rfl, ⟨⟨_, _, rfl⟩, rfl, rfl, fun _ _ _ => rfl⟩⟩
  split
  · next hir => exact yields_some.2 (hset _ hir.symm _)
  split
  · next htmsr =>
    rw [yields_some]
    refine ⟨h.setTxSizes value, ?_⟩
    obtain ⟨_, hapart⟩ := hset ⟨0x1B, by decide⟩ htmsr.symm value
    exact ⟨⟨_, _, rfl⟩, hapart.stored, hapart.rd, hapart.window⟩
  split
  · exact yields_some.2 (hset _ rfl _)
  split
  · next hsock =>
    unfold Chip.writeSocketReg
    simp only
    split
    · next hloc =>
      have hj : address = reg (socketOf address hsock) 0x01 := by
        simp only [reg, socketOf]
        omega
      split
      · have hdone {t : Chip} (ht : Safe t ∧ Apart i s t) (a : Index) (ha : a.val = address) :
            Safe (t.setMem a 0) ∧ Apart i s (t.setMem a 0) := by
          have hreg : a = reg (socketOf address hsock) 0x01 := Fin.ext (ha.trans hj)
          rw [hreg]
          exact ⟨ht.1.setMem _ _, ht.2.trans (apart_setMem ht.1 (ht.1.clear_reg (.inr (by decide))) _)⟩
        by_cases hi : i = socketOf address hsock
        · have hown := h.handleCommand_spares (i := i) (hcmd (hi ▸ hj)) bound
          rw [← hi]
          exact hown.bind (fun t ht => yields_some.2 (hdone ht _ rfl))
        · exact (h.handleCommand_apart hi value bound).bind (fun t ht => yields_some.2 (hdone ht _ rfl))
      · exact yields_some.2 (hset _ rfl _)
    · exact yields_some.2 (hset _ rfl _)
    all_goals first | exact yields_some.2 ⟨h, .refl i s⟩ | exact yields_some.2 (hset _ rfl _)
  split
  · exact yields_some.2 (hset _ rfl _)
  · exact yields_some.2 ⟨h, .refl i s⟩

end

end Chip

/-- The chip and its guest: what the guest has read from each socket and stepped over, how much
of that since the last RECV, and what the socket has accepted. -/
structure Link where
  chip : Chip
  got : Fin 4 → List Byte := fun _ => []
  taken : Fin 4 → Nat := fun _ => 0
  accepted : Fin 4 → List (List Byte) := fun _ => []

inductive Move where
  | flush
  | event (ev : NetEvent)
  | read (i : Fin 4) (n : Nat)
  | recv (i : Fin 4)
  | write (address : Nat) (value : Byte) (bound : Bool)

namespace Link

open Chip

def step (k : Link) : Move → Option Link
  | .flush => do
      let t ← k.chip.flushAll
      some { k with chip := t }
  | .event ev => do
      let t ← k.chip.applyEvent ev
      some { k with chip := t, accepted := fun j => k.accepted j ++ accepts j k.chip t ev }
  | .read i n => do
      let t ← k.chip.stepOver i n
      some
        { k with
          chip := t
          got := fun j => if j = i then k.got i ++ k.chip.readNext i n else k.got j
          taken := fun j => if j = i then k.taken i + n else k.taken j }
  | .recv i => do
      let t ← k.chip.issueRecv i
      some { k with chip := t, taken := fun j => if j = i then 0 else k.taken j }
  | .write address value bound => do
      let t ← k.chip.writeAt address value bound
      some { k with chip := t }

def Follows (i : Fin 4) (k : Link) : Move → Prop
  | .flush | .recv _ => True
  | .event ev =>
    ev.sock = i.val → ev.gen = (k.chip.sockets i).gen → Fits (k.chip.sockets i).status ev.evt
  | .read j n => j = i → k.taken i + n ≤ (k.chip.sockets i).snRxRsr
  | .write address value _ => Spares i k.chip address value

instance (i : Fin 4) (k : Link) : ∀ m, Decidable (Follows i k m)
  | .flush | .recv _ => isTrue trivial
  | .event ev =>
    inferInstanceAs (Decidable (ev.sock = i.val → ev.gen = (k.chip.sockets i).gen →
      Fits (k.chip.sockets i).status ev.evt))
  | .read j n => inferInstanceAs (Decidable (j = i → k.taken i + n ≤ (k.chip.sockets i).snRxRsr))
  | .write address value _ => inferInstanceAs (Decidable (Spares i k.chip address value))

structure Fifo (i : Fin 4) (before : List Byte) (k : Link) : Prop where
  safe : Safe k.chip
  header : (k.chip.sockets i).headerSize = headerSizeOf (k.chip.sockets i).status
  regular : Regular (k.chip.sockets i).receiveSize
  whole : isDatagram (k.chip.sockets i).status → (k.chip.sockets i).rxPending = []
  ring : ∃ l, Ring i before l (k.got i) (k.taken i) k.chip ∧
    l ++ (k.chip.sockets i).rxPending = (k.accepted i).flatten

section

variable {i : Fin 4} {before l d : List Byte} {taken : Nat} {k k' : Link}

theorem Fifo.of_gains (h : Fifo i before k) (hl : l ++ (k.chip.sockets i).rxPending = (k.accepted i).flatten)
    (hgains : Gains i before l (k'.got i) (k'.taken i) k.chip d k'.chip)
    (haccepted : (k'.accepted i).flatten = (k.accepted i).flatten ++ d) : Fifo i before k' := by
  obtain ⟨l', hring, heq⟩ := hgains.ring
  refine ⟨hgains.safe, ?_, ?_, fun hdatagram => ?_, l', hring, by rw [heq, hl, haccepted]⟩
  · rw [hgains.headerSize, hgains.status]
    exact h.header
  · rw [hgains.receiveSize]
    exact h.regular
  · rw [hgains.status] at hdatagram
    exact hgains.whole hdatagram (h.whole hdatagram)

theorem Fifo.step (h : Fifo i before k) {m : Move} (hfollows : Follows i k m) : Yields (k.step m) (Fifo i before) := by
  obtain ⟨l, hring, hl⟩ := h.ring
  cases m with
  | flush =>
    refine (hring.gains_flushAll h.safe).bind (fun t ht => ?_)
    exact yields_some.2 (h.of_gains hl ht (List.append_nil _).symm)
  | event ev =>
    refine (hring.gains_event h.safe h.header h.whole hfollows).bind (fun t ht => ?_)
    exact yields_some.2 (h.of_gains hl ht List.flatten_append)
  | read j n =>
    by_cases hij : i = j
    · subst hij
      refine (hring.stepOver h.safe h.regular (hfollows rfl)).bind (fun t ht => yields_some.2 ?_)
      refine h.of_gains hl (d := []) ?_ (List.append_nil _).symm
      simp only [if_true]
      exact ht
    · refine (hring.gains_stepOver_other h.safe hij n).bind (fun t ht => yields_some.2 ?_)
      refine h.of_gains hl (d := []) ?_ (List.append_nil _).symm
      simp only [if_neg hij]
      exact ht
  | recv j =>
    by_cases hij : i = j
    · subst hij
      refine (hring.gains_issueRecv h.safe h.regular).bind (fun t ht => yields_some.2 ?_)
      refine h.of_gains hl (d := []) ?_ (List.append_nil _).symm
      simp only [if_true]
      exact ht
    · refine (hring.gains_issueRecv_other h.safe hij).bind (fun t ht => yields_some.2 ?_)
      refine h.of_gains hl (d := []) ?_ (List.append_nil _).symm
      simp only [if_neg hij]
      exact ht
  | write address value bound =>
    refine (h.safe.writeAt_spares hfollows bound).bind (fun t ht => ?_)
    exact yields_some.2 (h.of_gains hl (hring.gains_apart ht.1 ht.2) (List.append_nil _).symm)

def opened (i : Fin 4) (s : Chip) : Link := { chip := s.openSocket i }

theorem rxRd_openSocket (i : Fin 4) (s : Chip) : (s.openSocket i).rxRd i = 0 := by
  have hzero {t : Chip} : (t.resetRxtx i).rxRd i = 0 := by
    simp [rxRd, be16, resetRxtx, setMem_memory, reg_inj, setMems]
  exact hzero

end

def setUp (value : Byte) : List Access := poke 0x1A value ++ poke 0x500 Mr.udp

def ready (value : Byte) : Chip := ((setUp value).foldlM access start).getD start

end Link

end GSSquared.Uthernet
