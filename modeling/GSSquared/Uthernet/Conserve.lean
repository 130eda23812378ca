/-
The sum of a connection's credit over a run.
-/
import GSSquared.Uthernet.Credit

set_option linter.all false

namespace GSSquared.Uthernet

open Bits Partial

namespace Chip

section

variable {s t u : Chip} {i j : Fin 4} {taken n : Nat}

theorem stays_setHeaderSize (i : Fin 4) (s : Chip) : Stays i s (s.setHeaderSize i) := by
  have hsocket : (s.setHeaderSize i).sockets i = { s.sockets i with headerSize := headerSizeOf (s.sockets i).status } :=
    if_pos rfl
  intro hopen
  rw [hsocket] at hopen
  exact ⟨hopen, by rw [hsocket], by rw [hsocket], by rw [hsocket], by rw [hsocket], by rw [hsocket], rfl, rfl, rfl⟩

theorem stays_setPeer (i : Fin 4) (ip : Ip) (port : Nat) (s : Chip) : Stays i s (s.setPeer i ip port) := by
  intro hopen
  rw [setPeer_sockets] at hopen
  refine ⟨hopen, ?_, ?_, ?_, ?_, ?_, ?_, ?_, ?_⟩
  all_goals try rw [setPeer_sockets]
  all_goals try rw [setPeer_worker]
  unfold setPeer
  split
  · unfold rxRd be16
    rw [setMems_memory_of_ne, setMems_memory_of_ne]
    all_goals simp [reg_inj]
  · rfl

theorem stays_applyStatus {ev : NetEvent} (hcause : ev.cause ≠ .none)
    (hopen : ev.cause = .connected ∨ ev.cause = .remoteClosed → tcpOpen (s.sockets i).status) :
    Stays i s (s.applyStatus i ev) := by
  have hclosed (hafter : statusAfter ev = Sr.closed) : Stays i s (s.applyStatus i ev) := by
    refine stays_closed ?_
    rw [(touch_applyStatus s i ev).status, hafter]
    decide
  have hend (u : Chip) (bits : Byte) : Stays i u ((u.setHeaderSize i).raiseIr i bits) :=
    (stays_setHeaderSize i u).trans (stays_raiseIr i i bits _)
  unfold applyStatus statusAfter at *
  cases hev : ev.cause with
  | none => exact absurd hev hcause
  | connected =>
    have hset := stays_setStatus (hopen (.inl hev)) Sr.established
    exact (hset.trans (stays_setPeer i ev.srcIp ev.srcPort _)).trans (hend _ _)
  | remoteClosed => exact (stays_setStatus (hopen (.inr hev)) Sr.closeWait).trans (hend _ _)
  | reset =>
    rw [hev] at hclosed
    exact hclosed rfl
  | failed =>
    rw [hev] at hclosed
    exact hclosed rfl

theorem spends_applyStatus (j : Fin 4) (ev : NetEvent) (s : Chip) : Spends j s (s.applyStatus j ev) := by
  have hset (status : Byte) : Spends j s (s.setStatus j status) := spends_of_eq rfl
  have hend (u : Chip) (bits : Byte) : Spends j u ((u.setHeaderSize j).raiseIr j bits) :=
    spends_of_eq (by rw [raiseIr_worker, setHeaderSize_worker])
  have hdrop : Spends j s (s.dropHost j) := ⟨rfl, fun _ hi => if_neg hi⟩
  unfold applyStatus
  split
  · exact ((hset _).trans (spends_of_eq (by rw [setPeer_worker]))).trans (hend _ _)
  · exact (hset _).trans (hend _ _)
  · exact hdrop.trans (hend _ _)
  · exact hdrop.trans (hend _ _)
  · exact (hset _).trans (spends_of_eq (by rw [setHeaderSize_worker]))

theorem Safe.storePacket_stays (h : Safe s) (hclosed : ¬ tcpOpen (s.sockets j).status) (header payload : List Byte)
    (i : Fin 4) : Yields (s.storePacket j header payload) (Stays i s) := by
  refine (h.storePacket j header payload).mono (fun t ht => ?_)
  by_cases hij : i = j
  · subst hij
    refine stays_closed ?_
    obtain ⟨wr, rsr, pending, hown⟩ := ht.2.own
    rw [hown]
    exact hclosed
  · exact ht.2.stays h hij

theorem Safe.ingestMacraw_stays (h : Safe s) (frame : List Byte) (i : Fin 4) :
    Yields (s.ingestMacraw frame) (Stays i s) := by
  have hmacraw (toUs broadcast : Bool) : Yields (s.storeMacraw toUs broadcast frame) (Stays i s) := by
    unfold Chip.storeMacraw
    split
    · exact yields_some.2 (.refl i s)
    · next hstatus =>
      rw [not_not] at hstatus
      split
      · exact yields_some.2 (.refl i s)
      · exact h.storePacket_stays (by rw [hstatus]; decide) _ _ i
  unfold Chip.ingestMacraw
  split
  · exact yields_some.2 (.refl i s)
  simp only
  split
  · next k hk =>
    split
    · exact h.storePacket_stays (by rw [(ipRawSocket_eq hk).1]; decide) _ _ i
    · exact hmacraw _ _
  · exact hmacraw _ _

theorem Safe.deliver_stays (h : Safe s) (hij : i ≠ j) (ev : NetEvent) : Yields (s.deliver j ev) (Stays i s) := by
  have hpacket (header payload : List Byte) : Yields (s.storePacket j header payload) (Stays i s) :=
    (h.storePacket j header payload).mono (fun t ht => ht.2.stays h hij)
  unfold deliver
  cases ev.evt with
  | none => exact yields_some.2 (.refl i s)
  | sendDone => exact yields_some.2 (stays_raiseIr i j _ s)
  | macRawRx => exact h.ingestMacraw_stays ev.payload i
  | rxUdp => exact hpacket _ _
  | ipRawRx => exact hpacket _ _
  | status =>
    have hspends := spends_applyStatus j ev s
    exact yields_some.2 (((local_applyStatus j ev s).apart h hij).stays (hspends.credit i hij) hspends.events)
  | rxTcp =>
    refine (h.ingestTcp j ev.payload).bind (fun t ht => ?_)
    have hstays := ht.2.stays h hij
    rw [yields_some]
    split
    · exact hstays.trans (stays_raiseIr i j _ t)
    · exact hstays

theorem Balanced.ingestTcp {data : List Byte} (h : Balanced i taken (n + data.length) s) (hs : Safe s) :
    Yields (s.ingestTcp i data) (Balanced i taken n) := by
  obtain ⟨t, ht, _, hfed⟩ := hs.ingestTcp i data
  obtain ⟨wr, rsr, pending, hown⟩ := hfed.own
  refine ⟨t, ht, fun hopen hpow => ?_⟩
  rw [hown] at hopen hpow
  have howes := h hopen hpow
  obtain ⟨hfed, htakes⟩ := (ingestTcp_takesIn hs howes.level.room data).of_eq ht
  exact howes.takesIn hfed hs htakes

def owed (i : Fin 4) (ev : NetEvent) (s : Chip) : Nat :=
  if receivedFor i (s.sockets i).gen ev = true then ev.payload.length else 0

theorem owed_eq_zero {ev : NetEvent} (h : ev.evt = .rxTcp → ev.sock = i.val → ev.gen ≠ (s.sockets i).gen) :
    owed i ev s = 0 := by
  refine if_neg (fun hreceived => ?_)
  simp only [receivedFor, Bool.and_eq_true, beq_iff_eq] at hreceived
  exact h hreceived.1.1 hreceived.1.2 hreceived.2

theorem Balanced.popEvent (h : Balanced i taken 0 s) {ev : NetEvent} {events : List NetEvent}
    (hevents : s.worker.events = ev :: events) : Balanced i taken (owed i ev s) (s.popEvent events) := by
  intro hopen hpow
  have howes := h hopen hpow
  refine ⟨howes.level, ?_⟩
  have htotal := howes.total
  unfold accounted at htotal ⊢
  rw [hevents, arriving_cons] at htotal
  simp only [Chip.popEvent, owed]
  omega

def Proper (i : Fin 4) (ev : NetEvent) (s : Chip) : Prop :=
  ev.sock = i.val → ev.gen = (s.sockets i).gen →
    (tcpOpen (s.sockets i).status → ev.evt ≠ .rxUdp ∧ ev.evt ≠ .ipRawRx) ∧
      (ev.evt = .status → ev.cause ≠ .none ∧
        (ev.cause = .connected ∨ ev.cause = .remoteClosed → tcpOpen (s.sockets i).status))

theorem Balanced.deliver {ev : NetEvent} (h : Balanced i taken (owed i ev s) s) (hs : Safe s) (hsock : ev.sock = i.val)
    (hgen : ev.evt ≠ .macRawRx → ev.gen = (s.sockets i).gen) (hproper : Proper i ev s) :
    Yields (s.deliver i ev) (Balanced i taken 0) := by
  have hstays {t : Chip} (hev : ev.evt ≠ .rxTcp) (ht : Stays i s t) : Balanced i taken 0 t := by
    rw [owed_eq_zero (fun hrx => absurd hrx hev)] at h
    exact h.stays ht
  have hpacket (hev : ev.evt = .rxUdp ∨ ev.evt = .ipRawRx) (header payload : List Byte) :
      Yields (s.storePacket i header payload) (Balanced i taken 0) := by
    have hne : ev.evt ≠ .macRawRx ∧ ev.evt ≠ .rxTcp := by rcases hev with hev | hev <;> rw [hev] <;> decide
    have hclosed : ¬ tcpOpen (s.sockets i).status := by
      intro hopen
      obtain ⟨hudp, hipRaw⟩ := (hproper hsock (hgen hne.1)).1 hopen
      exact hev.elim hudp hipRaw
    exact (hs.storePacket_stays hclosed header payload i).mono (fun _ ht => hstays hne.2 ht)
  unfold Chip.deliver
  cases hevt : ev.evt with
  | none => exact yields_some.2 (hstays (by rw [hevt]; decide) (.refl i s))
  | sendDone => exact yields_some.2 (hstays (by rw [hevt]; decide) (stays_raiseIr i i _ s))
  | macRawRx => exact (hs.ingestMacraw_stays ev.payload i).mono (fun _ ht => hstays (by rw [hevt]; decide) ht)
  | rxUdp => exact hpacket (.inl hevt) _ _
  | ipRawRx => exact hpacket (.inr hevt) _ _
  | status =>
    obtain ⟨hcause, hopen⟩ := (hproper hsock (hgen (by rw [hevt]; decide))).2 hevt
    exact yields_some.2 (hstays (by rw [hevt]; decide) (stays_applyStatus hcause hopen))
  | rxTcp =>
    have hall : owed i ev s = 0 + ev.payload.length := by
      rw [Nat.zero_add]
      refine if_pos ?_
      simp [receivedFor, hevt, hsock, hgen (by rw [hevt]; decide)]
    rw [hall] at h
    refine (h.ingestTcp hs).bind (fun t ht => ?_)
    rw [yields_some]
    split
    · exact ht.stays (stays_raiseIr i i _ t)
    · exact ht

theorem Balanced.applyEvent {ev : NetEvent} (h : Balanced i taken (owed i ev s) s) (hs : Safe s)
    (hproper : Proper i ev s) : Yields (s.applyEvent ev) (Balanced i taken 0) := by
  have hother (hev : ev.evt = .rxTcp → ev.sock = i.val → ev.gen ≠ (s.sockets i).gen) : Balanced i taken 0 s := by
    rw [owed_eq_zero hev] at h
    exact h
  by_cases hsock : ev.sock < 4
  · obtain ⟨j, hj⟩ : ∃ j : Fin 4, ev.sock = j.val := ⟨⟨ev.sock, hsock⟩, rfl⟩
    by_cases hstale : ev.evt ≠ .macRawRx ∧ ev.gen ≠ (s.sockets j).gen
    · rw [s.applyEvent_of_stale j hj hstale, yields_some]
      refine hother (fun _ hi hgen => hstale.2 ?_)
      rw [← Fin.ext (hi.symm.trans hj)]
      exact hgen
    · rw [s.applyEvent_of_live j hj hstale]
      by_cases hij : i = j
      · subst hij
        exact h.deliver hs hj (fun hne => by_contra (fun hgen => hstale ⟨hne, hgen⟩)) hproper
      · have hbalanced := hother (fun _ hi => absurd (Fin.ext (hi.symm.trans hj)) hij)
        exact (hs.deliver_stays hij ev).mono (fun _ ht => hbalanced.stays ht)
  · rw [s.applyEvent_of_ge hsock, yields_some]
    exact hother (fun _ hi => absurd (hi ▸ i.isLt) hsock)

end

end Chip

namespace NetWorker

structure Unmixed (i : Fin 4) (gen : Nat) (w : NetWorker) : Prop where
  requests : ∀ r ∈ w.requests, r.sock = i → r.gen = gen → r.msg ≠ .openUdp
  sock : (w.socks i).gen = gen → (w.socks i).isUdp = false
  events : ∀ e ∈ w.events, e.sock = i.val → e.gen = gen → e.evt ≠ .rxUdp ∧ e.evt ≠ .ipRawRx

section

variable {w t : NetWorker} {i j : Fin 4} {gen : Nat} {req : Option NetRequest} {st st' : SockState}
  {ev : Option NetEvent} {e : NetEvent}

theorem Did.udp (h : Did i req st st' ev) (hudp : st'.isUdp = true) :
    st.isUdp = true ∧ st'.gen = st.gen ∨ ∃ r, req = some r ∧ r.msg = .openUdp ∧ st'.gen = r.gen := by
  cases h
  case openedUdp r hmsg => exact .inr ⟨r, rfl, hmsg, rfl⟩
  all_goals first | exact .inl ⟨hudp, rfl⟩ | cases hudp

theorem Did.packet (h : Did i req st st' (some e)) (hev : e.evt = .rxUdp ∨ e.evt = .ipRawRx) :
    st.isUdp = true ∧ e.gen = st.gen := by
  generalize hsome : some e = ev at h
  cases h
  case datagram ip port bytes hfd hudp =>
    cases hsome
    exact ⟨hudp, rfl⟩
  case wrote =>
    split at hsome
    · cases hsome
      rcases hev with hev | hev <;> cases hev
    · cases hsome
  all_goals
    cases hsome
    try (rcases hev with hev | hev <;> cases hev)

theorem Unmixed.turn (h : Unmixed i gen w) (hturn : Turn j req st' ev w t) : Unmixed i gen t := by
  have hmem {r : NetRequest} (hr : r ∈ req.toList ∨ r ∈ t.requests) : r ∈ w.requests := by
    rw [hturn.requests]
    exact List.mem_append.2 hr
  refine ⟨fun r hr => h.requests r (hmem (.inr hr)), fun hgen => ?_, fun e he hsock hgen => ?_⟩
  · have hsocks := hturn.socks i
    by_cases hij : i = j
    · subst hij
      rw [if_pos rfl] at hsocks
      rw [hsocks] at hgen ⊢
      rw [← Bool.not_eq_true]
      intro hudp
      rcases hturn.did.udp hudp with ⟨hold, hsame⟩ | ⟨r, hr, hmsg, hsame⟩
      · exact absurd (h.sock (hsame.symm.trans hgen)) (by rw [hold]; decide)
      · have hr' : r ∈ w.requests := hmem (.inl (by rw [hr]; exact List.mem_singleton_self r))
        exact h.requests r hr' (hturn.sock r hr) (hsame.symm.trans hgen) hmsg
    · rw [if_neg hij] at hsocks
      rw [hsocks] at hgen ⊢
      exact h.sock hgen
  · rw [hturn.events] at he
    rcases Chip.mem_pushed he with hold | hnew
    · exact h.events e hold hsock hgen
    · have hdid := hnew ▸ hturn.did
      have hij : i = j := Fin.ext (hsock.symm.trans hdid.event.1)
      subst hij
      have hnot (hev : e.evt = .rxUdp ∨ e.evt = .ipRawRx) : False := by
        obtain ⟨hudp, hsame⟩ := hdid.packet hev
        exact absurd (h.sock (hsame.symm.trans hgen)) (by rw [hudp]; decide)
      exact ⟨fun hev => hnot (.inl hev), fun hev => hnot (.inr hev)⟩

end

end NetWorker

namespace Chip

open NetWorker

def Kinds (s : Chip) : Prop := ∀ i, tcpOpen (s.sockets i).status → Unmixed i (s.sockets i).gen s.worker

section

variable {s t : Chip} {i j : Fin 4} {taken : Nat} {handled l : List NetRequest}

theorem Ordered.unmixed (h : Ordered handled s) {gen : Nat} (hgen : (s.sockets i).gen < gen) :
    Unmixed i gen s.worker where
  requests r hr hsock hsame := by
    have hbound := h.bound r (List.mem_append_right _ hr)
    rw [hsock] at hbound
    omega
  sock hsame := by
    have hle := h.gen i
    omega
  events e he hsock hsame := absurd ⟨hsock, hsame⟩ (Net.newsOf_later h hgen (h.events e he))

theorem Kinds.asked (h : Kinds s) (hordered : Ordered handled s) (hasked : Asked i l s t) : Kinds t := by
  intro j hopen
  have hold : Unmixed j (t.sockets j).gen s.worker := by
    by_cases hj : j = i
    · subst hj
      cases hasked.course with
      | same hgen hstatus _ =>
        rw [hgen]
        exact h j (hstatus ▸ hopen)
      | renewed hgen _ _ => exact hordered.unmixed (by omega)
      | entered hgen hinit _ _ _ =>
        rw [hgen]
        exact h j (.inl hinit)
    · obtain ⟨hstatus, hgen⟩ := hasked.others j hj
      rw [hgen]
      exact h j (hstatus ▸ hopen)
  refine ⟨fun r hr hsock hgen hmsg => ?_, ?_, ?_⟩
  · rw [hasked.requests, List.mem_append] at hr
    rcases hr with hr | hr
    · exact hold.requests r hr hsock hgen hmsg
    · have hi : j = i := hsock.symm.trans (hasked.ours r hr).1
      rw [hi, hasked.udp r hr hmsg] at hopen
      exact absurd hopen (by decide)
  · rw [hasked.idle.socks]
    exact hold.sock
  · rw [hasked.idle.events]
    exact hold.events

theorem Kinds.asks (h : Kinds s) (hordered : Ordered handled s) (hasks : Asks s t) : Kinds t := by
  have hboth : Ordered handled t ∧ Kinds t := by
    induction hasks with
    | refl => exact ⟨hordered, h⟩
    | tail _ hstep ih =>
      obtain ⟨i, l, hasked⟩ := hstep
      exact ⟨ih.1.asked hasked, ih.2.asked ih.1 hasked⟩
  exact hboth.2

theorem Kinds.popEvent (h : Kinds s) {ev : NetEvent} {events : List NetEvent}
    (hevents : s.worker.events = ev :: events) : Kinds (s.popEvent events) := by
  intro i hopen
  have hold := h i hopen
  exact ⟨hold.requests, hold.sock, fun e he => hold.events e (by rw [hevents]; exact List.mem_cons_of_mem ev he)⟩

theorem Kinds.of_open (h : Kinds s) (hstatus : ∀ i, tcpOpen (t.sockets i).status → tcpOpen (s.sockets i).status)
    (hgen : ∀ i, (t.sockets i).gen = (s.sockets i).gen) (hrequests : t.worker.requests = s.worker.requests)
    (hidle : Idle s t) : Kinds t := by
  intro i hopen
  have hold := h i (hstatus i hopen)
  rw [hgen]
  exact ⟨hrequests ▸ hold.requests, hidle.socks ▸ hold.sock, hidle.events ▸ hold.events⟩

theorem Balanced.turn (h : Balanced i taken 0 s) {req : Option NetRequest} {st' : SockState} {ev : Option NetEvent}
    {w : NetWorker} (hturn : Turn j req st' ev s.worker w)
    (hcurrent : ∀ e, ev = some e → e.evt = .rxTcp → tcpOpen (s.sockets j).status → e.gen = (s.sockets j).gen) :
    Balanced i taken 0 { s with worker := w } := by
  intro hopen hpow
  have howes := h hopen hpow
  refine ⟨howes.level, ?_⟩
  have htotal := howes.total
  have harriving : arriving i (s.sockets i).gen w.events =
      arriving i (s.sockets i).gen s.worker.events + arriving i (s.sockets i).gen ev.toList := by
    rw [hturn.events]
    refine arriving_pushed (fun e he hreceived => (hturn.paid e he ?_).2)
    simp only [receivedFor, Bool.and_eq_true, beq_iff_eq] at hreceived
    exact hreceived.1.1
  have hspent : w.rxCredit i + arriving i (s.sockets i).gen ev.toList = s.worker.rxCredit i := by
    rw [hturn.credit]
    cases ev with
    | none => rfl
    | some e =>
      have hsock : e.sock = j.val := hturn.did.event.1
      have hone : arriving i (s.sockets i).gen (some e).toList =
          if receivedFor i (s.sockets i).gen e = true then e.payload.length else 0 :=
        (arriving_cons e).trans (Nat.add_zero _)
      rw [hone]
      unfold spent
      by_cases hrx : e.evt = .rxTcp
      · have hpaid := (hturn.paid e rfl hrx).1
        simp only [hrx, if_true]
        by_cases hij : i = j
        · subst hij
          rw [if_pos rfl, if_pos (by simp [receivedFor, hrx, hsock, hcurrent e rfl hrx hopen])]
          omega
        · rw [if_neg hij, if_neg, Nat.add_zero]
          simp only [receivedFor, Bool.and_eq_true, beq_iff_eq]
          exact fun hreceived => hij (Fin.ext (hreceived.1.2.symm.trans hsock))
      · simp only [hrx, if_false]
        rw [if_neg, Nat.add_zero]
        simp [receivedFor, hrx]
  unfold accounted at htotal ⊢
  simp only [harriving]
  omega

end

end Chip

namespace Net

open Chip NetWorker

def Obeys (k : Net) : Act → Prop
  | .write address value _ => (address = 0x001A → Holds value k.chip) ∧ ∀ i, Keeps i address value k.chip
  | .advance i n => tcpOpen (k.chip.sockets i).status → k.taken i + n ≤ (k.chip.sockets i).snRxRsr
  | .flush | .apply | .reset _ | .work _ => True

instance (k : Net) : ∀ a, Decidable (Obeys k a)
  | .write address value _ =>
    inferInstanceAs (Decidable ((address = 0x001A → Holds value k.chip) ∧ ∀ i, Keeps i address value k.chip))
  | .advance i n =>
    inferInstanceAs (Decidable (tcpOpen (k.chip.sockets i).status → k.taken i + n ≤ (k.chip.sockets i).snRxRsr))
  | .flush | .apply | .reset _ | .work _ => isTrue trivial

def Goes (i : Fin 4) (ev : NetEvent) (s : Chip) : Prop :=
  Reaches i ev s ∧ (ev.cause = .connected ∨ ev.cause = .remoteClosed)

instance (i : Fin 4) (ev : NetEvent) (s : Chip) : Decidable (Goes i ev s) := by
  unfold Goes Reaches
  infer_instance

/-- What is received for a socket is of the generation that is going on, and a connection comes
about only for a socket that has not been closed by a failure before. -/
def Current (k : Net) : Act → Prop
  | .work (.pollRecv i answer) =>
    k.chip.worker.receives i answer = true → tcpOpen (k.chip.sockets i).status →
      (k.chip.worker.socks i).gen = (k.chip.sockets i).gen
  | .apply => ∀ ev ∈ k.chip.worker.events.head?, ∀ i, Goes i ev k.chip → tcpOpen (k.chip.sockets i).status
  | _ => True

instance (k : Net) (a : Act) : Decidable (Current k a) := by
  unfold Current
  split <;> infer_instance

def Permits (k : Net) (a : Act) : Prop := Obeys k a ∧ Current k a

instance (k : Net) (a : Act) : Decidable (Permits k a) := inferInstanceAs (Decidable (Obeys k a ∧ Current k a))

/-- The sum is right for every socket that has been opened for TCP. -/
structure Conserves (k : Net) : Prop where
  safe : Safe k.chip
  ordered : Ordered k.handled k.chip
  kinds : Kinds k.chip
  balanced : ∀ i, Balanced i (k.taken i) 0 k.chip

section

variable {k k' : Net} {a : Act}

theorem Conserves.balanced_guest (h : Conserves k) (hguest : isGuest a = true) (hobeys : Obeys k a) (i : Fin 4) :
    Yields (k.step a) (fun k' => Balanced i (k'.taken i) 0 k'.chip) := by
  cases a with
  | write address value bound =>
    obtain ⟨t, ht, _⟩ := h.safe.writeAt address value bound hobeys.1
    rw [Net.step, ht]
    exact yields_some.2 ((h.balanced i).writeAt h.safe h.ordered (hobeys.2 i) ht)
  | advance j n =>
    refine ((h.balanced i).stepOver h.safe hobeys).bind (fun t ht => yields_some.2 ?_)
    exact ht
  | flush => exact ((h.balanced i).flushAll h.safe).bind (fun t ht => yields_some.2 ht.2)
  | reset powerCycle => exact yields_some.2 (.closed (closed_reset k.chip powerCycle i))
  | apply | work => cases hguest

theorem Conserves.guest (h : Conserves k) (hguest : isGuest a = true) (hobeys : Obeys k a) :
    Yields (k.step a) Conserves := by
  have hholds : ∀ value bound, a = .write 0x001A value bound → Holds value k.chip := by
    rintro value bound rfl
    exact hobeys.1 rfl
  obtain ⟨k', hk, hsafe, hasks, hhandled, _⟩ := step_asks h.safe hguest hholds
  refine ⟨k', hk, hsafe, ?_, h.kinds.asks h.ordered hasks, fun i => ?_⟩
  · rw [hhandled]
    exact h.ordered.asks hasks
  · exact (h.balanced_guest hguest hobeys i).of_eq hk

theorem Conserves.apply (h : Conserves k) (hcurrent : Current k .apply) : Yields (k.step .apply) Conserves := by
  unfold step
  cases hevents : k.chip.worker.events with
  | nil => exact yields_some.2 h
  | cons ev events =>
    simp only
    have hpop : Safe (k.chip.popEvent events) := h.safe.withWorker _
    have hev : ev ∈ k.chip.worker.posted := h.ordered.events ev (by rw [hevents]; exact List.mem_cons_self)
    have hgoes (i : Fin 4) (hreach : Reaches i ev k.chip) (hcause : ev.cause = .connected ∨ ev.cause = .remoteClosed) :
        tcpOpen (k.chip.sockets i).status := hcurrent ev (by rw [hevents]; rfl) i ⟨hreach, hcause⟩
    have hproper (i : Fin 4) : Proper i ev (k.chip.popEvent events) := by
      refine fun hsock hgen => ⟨fun hopen => ?_, fun hstatus => ⟨h.ordered.cause ev hev hstatus, ?_⟩⟩
      · exact (h.kinds i hopen).events ev (by rw [hevents]; exact List.mem_cons_self) hsock hgen
      · exact hgoes i ⟨hstatus, hsock, hgen⟩
    obtain ⟨t, ht, _, heffect⟩ := event_effect hpop ev
    obtain ⟨hsafe, hordered⟩ := (h.ordered.event h.safe hevents).of_eq ht
    have hkinds : Kinds t := by
      have hold := h.kinds.popEvent hevents
      rcases heffect with ⟨i, hreach, htouch⟩ | ⟨_, hquiet⟩
      · refine hold.of_open (fun j hopen => ?_) (fun j => ?_) htouch.requests htouch.idle
        · by_cases hj : j = i
          · subst hj
            rw [htouch.status] at hopen
            refine hgoes j hreach ?_
            have hcause := h.ordered.cause ev hev hreach.1
            unfold statusAfter at hopen
            cases hcases : ev.cause with
            | none => exact absurd hcases hcause
            | connected => exact .inl rfl
            | remoteClosed => exact .inr rfl
            | reset | failed =>
              rw [hcases] at hopen
              exact absurd hopen (show ¬ tcpOpen Sr.closed by decide)
          · exact (htouch.others j hj).1 ▸ hopen
        · by_cases hj : j = i
          · rw [hj, htouch.gen]
          · exact (htouch.others j hj).2
      · exact hold.of_open (fun j hopen => (hquiet.sockets j).1 ▸ hopen) (fun j => (hquiet.sockets j).2)
          hquiet.requests hquiet.idle
    refine ⟨_, by rw [show ({ k.chip with worker := { k.chip.worker with events := events } } : Chip).applyEvent ev =
      some t from ht]; rfl, hsafe, hordered, hkinds, fun i => ?_⟩
    exact (((h.balanced i).popEvent hevents).applyEvent hpop (hproper i)).of_eq ht

theorem Conserves.work (h : Conserves k) {st : NetWorker.Step} (hcurrent : Current k (.work st)) :
    Yields (k.step (.work st)) Conserves := by
  obtain ⟨st', ev, hturn, hlooked⟩ := step_receives k.chip.worker st
  refine yields_some.2 ⟨h.safe.withWorker _, h.ordered.turn hturn, fun i hopen => (h.kinds i hopen).turn hturn,
    fun i => (h.balanced i).turn hturn (fun e he hrx hopen => ?_)⟩
  obtain ⟨sock, answer, rfl, hreceives⟩ := hlooked e he hrx
  have hgen : (k.chip.worker.socks sock).gen = (k.chip.sockets sock).gen := hcurrent hreceives hopen
  have hdid := he ▸ hturn.did
  rcases hdid.event.2.1 with hsame | ⟨r, hr, _⟩
  · exact hsame.trans hgen
  · cases hr

theorem Conserves.step (h : Conserves k) (hpermits : Permits k a) : Yields (k.step a) Conserves := by
  cases a with
  | apply => exact h.apply hpermits.2
  | work st => exact h.work hpermits.2
  | write | advance | flush | reset => exact h.guest rfl hpermits.1

theorem kinds_blank : Kinds ({} : Chip) := fun _ hopen => absurd hopen (show ¬ tcpOpen Sr.closed by decide)

theorem conserves_start : Conserves start where
  safe := safe_start
  ordered := ordered_start
  kinds := kinds_blank.asks ordered_blank (asks_reset {} true)
  balanced i := .closed (closed_reset {} true i)

/-- The credit of a connection, with what is on its way, what waits and what is stored, is what its
ring can hold, when nothing is received for an older generation and none comes about after a
failure. -/
theorem credit_conserved (acts : List Act) (h : Guarded step Permits start acts) :
    ∃ k, acts.foldlM step start = some k ∧ ∀ i, tcpOpen (k.chip.sockets i).status →
      (k.chip.sockets i).receiveSize.isPowerOfTwo →
        k.chip.worker.rxCredit i + arriving i (k.chip.sockets i).gen k.chip.worker.events +
          (k.chip.sockets i).rxPending.length + (k.chip.sockets i).snRxRsr = (k.chip.sockets i).receiveSize - 1 := by
  obtain ⟨k, hk, hconserves⟩ := h.yields (fun _ _ hpermits hconserves => hconserves.step hpermits) conserves_start
  exact ⟨k, hk, fun i hopen hpow => (hconserves.balanced i hopen hpow).total⟩

end

def answered : List Act :=
  connecting .ok ++
    [.apply, .work (.pollRecv 0 (.data [0x41, 0x42, 0x43])), .apply, .advance 0 2, .write 0x401 Cr.recv false]

theorem credit_conserved_answered :
    ∃ k, answered.foldlM step start = some k ∧ ∀ i, tcpOpen (k.chip.sockets i).status →
      (k.chip.sockets i).receiveSize.isPowerOfTwo →
        k.chip.worker.rxCredit i + arriving i (k.chip.sockets i).gen k.chip.worker.events +
          (k.chip.sockets i).rxPending.length + (k.chip.sockets i).snRxRsr = (k.chip.sockets i).receiveSize - 1 :=
  credit_conserved _ (by decide +kernel)

def reopened : List Act :=
  connecting .ok ++
    [.apply, .write 0x401 Cr.close false, .write 0x401 Cr.open' false, .work (.pollRecv 0 (.data [0x41]))]

theorem credit_spent :
    ¬ ∀ acts : List Act, Guarded step Obeys start acts →
      ∃ k, acts.foldlM step start = some k ∧ ∀ i, tcpOpen (k.chip.sockets i).status →
        (k.chip.sockets i).receiveSize.isPowerOfTwo →
          k.chip.worker.rxCredit i + arriving i (k.chip.sockets i).gen k.chip.worker.events +
            (k.chip.sockets i).rxPending.length + (k.chip.sockets i).snRxRsr = (k.chip.sockets i).receiveSize - 1 := by
  intro h
  obtain ⟨k, hk, hi⟩ := h reopened (by decide +kernel)
  have hend : (reopened.foldlM step start).map (fun k =>
      ((k.chip.sockets 0).status, (k.chip.sockets 0).receiveSize,
        k.chip.worker.rxCredit 0 + arriving 0 (k.chip.sockets 0).gen k.chip.worker.events +
          (k.chip.sockets 0).rxPending.length + (k.chip.sockets 0).snRxRsr)) = some (Sr.init, 0x800, 0x7FE) := by
    decide +kernel
  simp only [hk, Option.map_some, Option.some.injEq, Prod.mk.injEq] at hend
  obtain ⟨hstatus, hsize, hsum⟩ := hend
  have hall := hi 0 (.inl hstatus) (by rw [hsize]; exact ⟨11, rfl⟩)
  rw [hsum, hsize] at hall
  exact absurd hall (by decide)

/-- The open of socket 0 fails, the guest has it listen before it is told, and a peer connects. -/
def revived : List Act :=
  [.write 0x400 Mr.tcp false, .write 0x401 Cr.open' false] ++ List.replicate 5 (.work (.handleRequest .ok .ok [])) ++
    [.work (.handleRequest (.error 24) .ok []), .write 0x401 Cr.listen true, .work (.handleRequest .ok .ok []), .apply,
      .work (.pollAccept 0 (some ({}, 0))), .apply]

example : (revived.foldlM step start).map (fun k => ((k.chip.sockets 0).status, k.chip.accounted 0)) =
    some (Sr.established, 0) := by decide +kernel

end Net

end GSSquared.Uthernet
