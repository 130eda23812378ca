/-
What is sent over a connection.
-/
import GSSquared.Uthernet.Delivery

set_option linter.all false

namespace GSSquared.Uthernet

open Bits Partial

def inFlight (i : Fin 4) (gen : Nat) (q : List NetRequest) : List Byte :=
  (q.filter (fun r => r.msg = .sendTcp ∧ r.sock = i ∧ r.gen = gen)).flatMap (·.payload)

def Comes (i : Fin 4) (gen : Nat) (e : NetEvent) : Prop :=
  e.evt = .status ∧ e.sock = i.val ∧ e.gen = gen ∧ (e.cause = .connected ∨ e.cause = .remoteClosed)

def CameUp (i : Fin 4) (gen : Nat) (posted : List NetEvent) : Prop := ∃ e ∈ posted, Comes i gen e

def Connected (status : Byte) : Prop := status = Sr.established ∨ status = Sr.closeWait

instance (status : Byte) : Decidable (Connected status) :=
  inferInstanceAs (Decidable (status = Sr.established ∨ status = Sr.closeWait))

section

variable {i : Fin 4} {gen : Nat} {p q : List NetRequest} {r : NetRequest} {posted more : List NetEvent}

@[simp] theorem inFlight_append : inFlight i gen (p ++ q) = inFlight i gen p ++ inFlight i gen q := by
  simp [inFlight]

theorem inFlight_cons :
    inFlight i gen (r :: q) =
      (if r.msg = .sendTcp ∧ r.sock = i ∧ r.gen = gen then r.payload else []) ++ inFlight i gen q := by
  unfold inFlight
  rw [List.filter_cons]
  simp only [decide_eq_true_eq]
  split
  · exact List.flatMap_cons
  · rfl

theorem inFlight_nil (h : ∀ r ∈ q, r.msg ≠ .sendTcp) : inFlight i gen q = [] := by
  have hnone : q.filter (fun r => r.msg = .sendTcp ∧ r.sock = i ∧ r.gen = gen) = [] :=
    List.filter_eq_nil_iff.2 (fun r hr hmatch => h r hr (of_decide_eq_true hmatch).1)
  rw [inFlight, hnone]
  rfl

theorem CameUp.mono (h : CameUp i gen posted) : CameUp i gen (posted ++ more) := by
  obtain ⟨e, he, hcomes⟩ := h
  exact ⟨e, List.mem_append_left _ he, hcomes⟩

theorem cameUp_append {ev : Option NetEvent} :
    CameUp i gen (posted ++ ev.toList) ↔ CameUp i gen posted ∨ ∃ e, ev = some e ∧ Comes i gen e := by
  simp only [CameUp, List.mem_append, Option.mem_toList, or_and_right, exists_or]

theorem cameUp_quiet {ev : Option NetEvent} (h : ∀ e, ev = some e → ¬ Comes i gen e) :
    CameUp i gen (posted ++ ev.toList) ↔ CameUp i gen posted := by
  rw [cameUp_append, or_iff_left]
  rintro ⟨e, he, hcomes⟩
  exact h e he hcomes

end

namespace Chip

section

variable {s t u : Chip} {i : Fin 4}

theorem be16_lt (i : Fin 4) (hi lo : Fin 0x100) (s : Chip) : s.be16 i hi lo < 0x10000 := by
  have hhi := (s.memory (reg i hi)).isLt
  have hlo := (s.memory (reg i lo)).isLt
  unfold be16
  omega

theorem Safe.gather_contents (h : Safe s) (hsize : Regular (s.sockets i).transmitSize) :
    s.gather i = some (s.contents i) ∧ s.txDataSize i = (s.contents i).length := by
  have hcontents : (s.contents i).length =
      if (s.sockets i).transmitSize = 0 then 0
      else (s.txWr i + 0x10000 - s.txRd i) % (s.sockets i).transmitSize := by
    rw [contents, List.length_map, List.length_range]
  have hlast := h.transmit_inside i
  have hrd : s.txRd i < 0x10000 := be16_lt i _ _ s
  rw [h.gather_eq i]
  rcases hsize with hzero | ⟨k, hk⟩
  · have hnone : s.txDataSize i = 0 := by rw [txDataSize, hzero]; rfl
    rw [hcontents, if_pos hzero, hnone]
    refine ⟨?_, rfl⟩
    rw [contents, hzero]
    rfl
  · have hne : (s.sockets i).transmitSize ≠ 0 := hk ▸ Nat.ne_of_gt (Nat.two_pow_pos k)
    have hrx : rxBase ≤ 0x10000 := by decide
    have hdvd : 2 ^ k ∣ 0x10000 := dvd_wrap ⟨k, rfl⟩ (by omega)
    have hcount : s.txDataSize i = (s.txWr i + 0x10000 - s.txRd i) % (s.sockets i).transmitSize := by
      rw [txDataSize, if_neg hne, hk]
      refine present_eq (Nat.mod_lt _ (Nat.two_pow_pos k)) ?_
      obtain ⟨c, hc⟩ := hdvd
      rw [Nat.add_mod_mod, Nat.add_sub_cancel' (by omega), hc, Nat.add_mul_mod_self_left]
    refine ⟨?_, by rw [hcontents, if_neg hne, hcount]⟩
    have haddress (c : Nat) :
        s.sendAddress i c = (s.sockets i).transmitBase + (s.txRd i + c) % (s.sockets i).transmitSize := by
      unfold sendAddress
      rw [hk, Nat.and_two_pow_sub_one_eq_mod, Nat.and_two_pow_sub_one_eq_mod, Nat.mod_add_mod]
    rw [contents]
    simp only [if_neg hne, hcount, haddress]

structure Calls (s t : Chip) : Prop where
  gen : ∀ j, (s.sockets j).gen ≤ (t.sockets j).gen
  connected : ∀ j, Connected (t.sockets j).status →
    (t.sockets j).gen = (s.sockets j).gen ∧ Connected (s.sockets j).status
  requests : ∃ l, t.worker.requests = s.worker.requests ++ l ∧ ∀ r ∈ l, r.msg ≠ .sendTcp
  idle : Idle s t

theorem Calls.refl (s : Chip) : Calls s s :=
  ⟨fun _ => Nat.le_refl _, fun _ h => ⟨rfl, h⟩, ⟨[], (List.append_nil _).symm, nofun⟩, .refl s⟩

theorem Calls.trans (h : Calls s t) (h' : Calls t u) : Calls s u := by
  obtain ⟨l, hl, hnone⟩ := h.requests
  obtain ⟨l', hl', hnone'⟩ := h'.requests
  refine ⟨fun j => Nat.le_trans (h.gen j) (h'.gen j), fun j hconnected => ?_, ⟨l ++ l', ?_, ?_⟩, h.idle.trans h'.idle⟩
  · obtain ⟨hgen', hconnected'⟩ := h'.connected j hconnected
    obtain ⟨hgen, hconnected⟩ := h.connected j hconnected'
    exact ⟨hgen'.trans hgen, hconnected⟩
  · rw [hl', hl, List.append_assoc]
  · exact fun r hr => (List.mem_append.1 hr).elim (hnone r) (hnone' r)

theorem Quiet.calls (h : Quiet s t) : Calls s t where
  gen j := Nat.le_of_eq (h.sockets j).2.symm
  connected j hconnected := ⟨(h.sockets j).2, (h.sockets j).1 ▸ hconnected⟩
  requests := ⟨[], h.requests.trans (List.append_nil _).symm, nofun⟩
  idle := h.idle

theorem Touch.connected {status : Byte} {gen : Nat} {requests : List NetRequest} (h : Touch i status gen requests s t)
    (hstatus : ¬ Connected status) (j : Fin 4) (hconnected : Connected (t.sockets j).status) :
    (t.sockets j).gen = (s.sockets j).gen ∧ Connected (s.sockets j).status := by
  by_cases hj : j = i
  · rw [hj, h.status] at hconnected
    exact absurd hconnected hstatus
  · exact ⟨(h.others j hj).2, (h.others j hj).1 ▸ hconnected⟩

theorem Effect.calls (h : Effect i s t) : Calls s t := by
  obtain ⟨l, hasked, hrank⟩ := h.asked
  refine ⟨hasked.gen_le, ?_, ⟨l, hasked.requests, fun r hr hmsg => ?_⟩, hasked.idle⟩
  · cases h with
    | quiet h => exact h.calls.connected
    | closed how status hhow hstatus h =>
      exact h.connected (by rcases hstatus with rfl | rfl | rfl <;> decide)
    | openedTcp h => exact h.connected (by decide)
    | openedUdp port h => exact h.connected (by decide)
    | connect ip port hinit h => exact h.connected (by decide)
    | listen hinit h => exact h.connected (by decide)
  · have hle := hrank r hr
    rw [hmsg] at hle
    exact absurd hle (by decide)

theorem Effects.calls (h : Effects s t) : Calls s t := by
  induction h with
  | refl => exact .refl s
  | tail _ hstep ih =>
    obtain ⟨i, heffect⟩ := hstep
    exact ih.trans heffect.calls

theorem calls_post (s : Chip) {req : NetRequest} (hreq : req.msg ≠ .sendTcp) : Calls s (s.post req) := by
  obtain ⟨l, hl, hq⟩ := posting_eq req s.worker.requests
  refine ⟨fun _ => Nat.le_refl _, fun _ h => ⟨rfl, h⟩, ⟨l, (post_requests s.worker req).trans hq, fun r hr => ?_⟩, ?_⟩
  · rw [List.mem_singleton.1 (hl.subset hr)]
    exact hreq
  · exact ⟨(post_rest s.worker req).1, (post_rest s.worker req).2.1, (post_rest s.worker req).2.2⟩

structure Sent (i : Fin 4) (s t : Chip) : Prop where
  sockets : ∀ j, (t.sockets j).status = (s.sockets j).status ∧ (t.sockets j).gen = (s.sockets j).gen
  requests : t.worker.requests =
    s.worker.requests ++ [{ msg := .sendTcp, sock := i, gen := (s.sockets i).gen, payload := s.contents i }]
  idle : Idle s t

theorem sendRequest_other (hsend : sendable (s.sockets i).status = true) (hnot : ¬ Connected (s.sockets i).status)
    (packet : List Byte) : (s.sendRequest i packet).msg ≠ .sendTcp := by
  unfold sendRequest
  simp only
  split
  · nofun
  split
  · nofun
  split
  · nofun
  · next hudp hmac hip =>
    simp only [sendable, Bool.or_eq_true, beq_iff_eq] at hsend
    rcases hsend with (((hsend | hsend) | hsend) | hsend) | hsend
    · exact absurd (.inl hsend) hnot
    · exact absurd (.inr hsend) hnot
    · exact absurd hsend hudp
    · exact absurd hsend hmac
    · exact absurd hsend hip

theorem sendRequest_connected (hconnected : Connected (s.sockets i).status) (packet : List Byte) :
    s.sendRequest i packet = { msg := .sendTcp, sock := i, gen := (s.sockets i).gen, payload := packet } := by
  have hne : (s.sockets i).status ≠ Sr.udp ∧ (s.sockets i).status ≠ Sr.macRaw ∧ (s.sockets i).status ≠ Sr.ipRaw := by
    rcases hconnected with hstatus | hstatus <;> rw [hstatus] <;> decide
  unfold sendRequest
  simp only [if_neg hne.1, if_neg hne.2.1, if_neg hne.2.2]

theorem calls_sendData (h : Safe s) (hnot : ¬ Connected (s.sockets i).status) (ht : s.sendData i = some t) :
    Calls s t := by
  rcases effect_sendData h i with hnone | ⟨hsend, _, packet, _, hsome⟩
  · cases ht.symm.trans hnone
    exact .refl s
  · cases ht.symm.trans hsome
    have hsocket := s.consume_sockets i
    refine (quiet_consume s i).calls.trans (calls_post _ (sendRequest_other ?_ ?_ packet))
    · rw [hsocket]
      exact hsend
    · rw [hsocket]
      exact hnot

theorem sent_sendData (h : Safe s) (hconnected : Connected (s.sockets i).status)
    (hsize : Regular (s.sockets i).transmitSize)
    (hroom : s.contents i ≠ [] → s.worker.requests.length < ringCapacity) (ht : s.sendData i = some t) :
    s.contents i = [] ∧ t = s ∨ Sent i s t := by
  obtain ⟨hgather, hcount⟩ := h.gather_contents hsize
  have hsend : sendable (s.sockets i).status = true := by
    rcases hconnected with hstatus | hstatus <;> rw [hstatus] <;> rfl
  by_cases hnil : s.contents i = []
  · rw [sendData, if_pos (.inr (by rw [hcount, hnil, List.length_nil]))] at ht
    exact .inl ⟨hnil, (Option.some.inj ht).symm⟩
  · have hne : ¬ (sendable (s.sockets i).status = false ∨ s.txDataSize i = 0) := by
      rw [hsend, hcount, List.length_eq_zero_iff]
      simp [hnil]
    rw [sendData, if_neg hne, hgather] at ht
    have ht : t = (s.consume i).post ((s.consume i).sendRequest i (s.contents i)) := (Option.some.inj ht).symm
    have hrequest : (s.consume i).sendRequest i (s.contents i) =
        { msg := .sendTcp, sock := i, gen := (s.sockets i).gen, payload := s.contents i } := by
      rw [sendRequest_connected (by rw [consume_sockets]; exact hconnected), consume_sockets]
    rw [hrequest] at ht
    have hrest := post_rest s.worker { msg := .sendTcp, sock := i, gen := (s.sockets i).gen, payload := s.contents i }
    refine .inr ⟨fun j => ?_, ?_, ?_⟩
    · rw [ht, post_sockets, consume_sockets]
      exact ⟨rfl, rfl⟩
    · rw [ht, post_worker, consume_worker, post_requests, posting, Channel.send_of_room (hroom hnil)]
      rfl
    · have hworker : t.worker =
          (s.worker.post { msg := .sendTcp, sock := i, gen := (s.sockets i).gen, payload := s.contents i }).1 := by
        rw [ht, post_worker, consume_worker]
      exact ⟨by rw [hworker]; exact hrest.1, by rw [hworker]; exact hrest.2.1, by rw [hworker]; exact hrest.2.2⟩

theorem writeAt_send (i : Fin 4) (bound : Bool) (s : Chip) :
    s.writeAt (reg i 0x01) Cr.send bound = (do
      let t ← s.sendData i
      some (t.setMem (reg i 0x01) 0)) := by
  rw [writeAt_reg]
  match i with | 0 | 1 | 2 | 3 => rfl

theorem sends_iff {address : Nat} {value : Byte} :
    s.sends i address value = true ↔ address = (reg i 0x01).val ∧ value = Cr.send ∧ Connected (s.sockets i).status := by
  simp only [sends, Connected, Bool.and_eq_true, Bool.or_eq_true, beq_iff_eq, and_assoc]

theorem sends_inj {address : Nat} {value : Byte} {j : Fin 4} (h : s.sends i address value = true)
    (h' : s.sends j address value = true) : i = j :=
  (reg_inj.1 (Fin.ext ((sends_iff.1 h).1.symm.trans (sends_iff.1 h').1))).1

/-- What a SEND over a connection needs: a window that a mask is right for, and room for what there
is to send. -/
def Room (i : Fin 4) (s : Chip) : Prop :=
  Regular (s.sockets i).transmitSize ∧ (s.contents i ≠ [] → s.worker.requests.length < ringCapacity)

instance (i : Fin 4) (s : Chip) : Decidable (Room i s) :=
  inferInstanceAs (Decidable (((s.sockets i).transmitSize = 0 ∨ (s.sockets i).transmitSize.isPowerOfTwo) ∧
    (s.contents i ≠ [] → s.worker.requests.length < ringCapacity)))

theorem writeAt_transmits (h : Safe s) {address : Nat} {value : Byte} {bound : Bool}
    (hroom : ∀ i, s.sends i address value = true → Room i s) (ht : s.writeAt address value bound = some t) :
    (Calls s t ∧ ∀ i, s.sends i address value = true → s.contents i = []) ∨
      ∃ i, s.sends i address value = true ∧ Sent i s t := by
  by_cases hsend : ∃ i, address = (reg i 0x01).val ∧ value = Cr.send
  · obtain ⟨i, rfl, rfl⟩ := hsend
    rw [writeAt_send] at ht
    obtain ⟨u, hu, ht⟩ := Option.bind_eq_some_iff.1 ht
    cases ht
    have hcleared := quiet_setMem u (reg i 0x01) 0
    have honly (j : Fin 4) (hj : s.sends j (reg i 0x01) Cr.send = true) : j = i :=
      (reg_inj.1 (Fin.ext (sends_iff.1 hj).1)).1.symm
    by_cases hconnected : Connected (s.sockets i).status
    · have hsends : s.sends i (reg i 0x01) Cr.send = true := sends_iff.2 ⟨rfl, rfl, hconnected⟩
      obtain ⟨hsize, hfree⟩ := hroom i hsends
      rcases sent_sendData h hconnected hsize hfree hu with ⟨hnil, rfl⟩ | hsent
      · exact .inl ⟨hcleared.calls, fun j hj => by rw [honly j hj]; exact hnil⟩
      · refine .inr ⟨i, hsends, fun j => ?_, ?_, hsent.idle.trans hcleared.idle⟩
        · exact ⟨(hcleared.sockets j).1.trans (hsent.sockets j).1, (hcleared.sockets j).2.trans (hsent.sockets j).2⟩
        · exact hcleared.requests.trans hsent.requests
    · refine .inl ⟨(calls_sendData h hconnected hu).trans hcleared.calls, fun j hj => ?_⟩
      rw [honly j hj] at hj
      exact absurd (sends_iff.1 hj).2.2 hconnected
  · have hnone (i : Fin 4) : ¬ s.sends i address value = true := fun hi =>
      hsend ⟨i, (sends_iff.1 hi).1, (sends_iff.1 hi).2.1⟩
    rcases effects_writeAt h ht with heffects | ⟨i, u, haddress, hvalue, _⟩
    · exact .inl ⟨heffects.calls, fun i hi => absurd hi (hnone i)⟩
    · exact absurd ⟨i, haddress, hvalue⟩ hsend

end

end Chip

namespace NetWorker

/-- What is known of a worker's socket, whose generation has come up or not. -/
structure Tidy (up : Prop) (st : SockState) : Prop where
  early : st.status = Sr.listen ∨ st.status = Sr.synSent → ¬ up
  tcp : up → st.fd ≠ none → st.isTcp = true
  clean : ¬ up → st.txPending = [] ∧ ∀ handed, st.fd = some handed → handed = []

section

variable {i j : Fin 4} {req : Option NetRequest} {st st' : SockState} {ev : Option NetEvent} {e : NetEvent}
  {handled q : List NetRequest} {posted : List NetEvent} {g : Nat} {up : Prop} {sent : List Byte}

theorem tidy_closed (up : Prop) (gen : Nat) : Tidy up { gen := gen } where
  early h := absurd h (show ¬ (Sr.closed = Sr.listen ∨ Sr.closed = Sr.synSent) by decide)
  tcp _ h := absurd rfl h
  clean _ := ⟨rfl, nofun⟩

theorem tidy_fresh (hup : ¬ up) (hpending : st.txPending = []) (hfd : ∀ handed, st.fd = some handed → handed = []) :
    Tidy up st where
  early _ := hup
  tcp h := absurd h hup
  clean _ := ⟨hpending, hfd⟩

theorem tidy_up (hup : up) (hstatus : st.status ≠ Sr.listen ∧ st.status ≠ Sr.synSent)
    (htcp : st.fd ≠ none → st.isTcp = true) : Tidy up st where
  early h := absurd h (not_or.2 hstatus)
  tcp _ := htcp
  clean h := absurd hup h

theorem Did.comes (h : Did i req st st' (some e)) (hcomes : Comes j g e) : j = i ∧ g = st'.gen ∧ Online st'.status := by
  obtain ⟨hevt, hsock, hgen, hcause⟩ := hcomes
  generalize hev : some e = ev at h
  cases h with
  | connected | cameUp | accepted =>
    cases hev
    exact ⟨Fin.ext hsock.symm, hgen.symm, .inr (.inr (.inl rfl))⟩
  | ended =>
    cases hev
    exact ⟨Fin.ext hsock.symm, hgen.symm, .inr (.inr (.inr rfl))⟩
  | openFailed | connectFailed | refused | broke | dropped =>
    cases hev
    rcases hcause with hcause | hcause <;> cases hcause
  | sentUdp | sentRaw | received | datagram | frame =>
    cases hev
    cases hevt
  | wrote =>
    split at hev
    · cases hev
      cases hevt
    · cases hev
  | idle | passed | closed | openedTcp | openedUdp | adopted | connecting => cases hev

theorem Did.tidy (h : Did i req st st' ev) (hst : Tidy (CameUp i st.gen posted) st)
    (hlinked : Online st.status → st.isTcp = true)
    (hfresh : ∀ r, req = some r → rank r.msg ≤ 2 → ¬ CameUp i r.gen posted)
    (hdata : ∀ r, req = some r → r.msg = .sendTcp → ¬ CameUp i r.gen posted → r.payload = []) :
    Tidy (CameUp i st'.gen (posted ++ ev.toList)) st' := by
  have hsame {st' : SockState} {ev : Option NetEvent} (hev : ∀ e, ev = some e → ¬ Comes i st'.gen e)
      (hst' : Tidy (CameUp i st'.gen posted) st') : Tidy (CameUp i st'.gen (posted ++ ev.toList)) st' := by
    rwa [cameUp_quiet hev]
  have hsilent {st' : SockState} (hst' : Tidy (CameUp i st'.gen posted) st') :
      Tidy (CameUp i st'.gen (posted ++ (none : Option NetEvent).toList)) st' := by
    rwa [Option.toList_none, List.append_nil]
  have hcame {g : Nat} {e : NetEvent} (he : Comes i g e) : CameUp i g (posted ++ (some e).toList) :=
    cameUp_append.2 (.inr ⟨e, rfl, he⟩)
  have hother {e : NetEvent} (he : e.evt ≠ .status) : ∀ e', some e = some e' → ¬ Comes i st.gen e' := by
    rintro e' heq hcomes
    rw [Option.some.inj heq] at he
    exact he hcomes.1
  cases h with
  | idle | passed => exact hsilent hst
  | sentUdp r _ _ _ cause err => exact hsame (hother nofun) hst
  | sentRaw r _ _ cause => exact hsame (hother nofun) hst
  | received | datagram | frame => exact hsame (hother nofun) hst
  | closed | openFailed | connectFailed | refused | broke | dropped => exact tidy_closed _ _
  | openedTcp r _ hmsg =>
    exact hsilent (tidy_fresh (hfresh r rfl (by rw [hmsg]; decide)) rfl (by rintro _ ⟨⟩; rfl))
  | openedUdp r _ hmsg =>
    exact hsilent (tidy_fresh (hfresh r rfl (by rw [hmsg]; decide)) rfl (by rintro _ ⟨⟩; rfl))
  | adopted r _ hmsg =>
    exact hsilent (tidy_fresh (hfresh r rfl (by rw [hmsg]; decide)) rfl (by rintro _ ⟨⟩; rfl))
  | connecting r _ hmsg hgen _ _ =>
    have hup : ¬ CameUp i st.gen posted := hgen ▸ hfresh r rfl (by rw [hmsg]; decide)
    exact hsilent (tidy_fresh hup (hst.clean hup).1 (hst.clean hup).2)
  | connected r _ _ _ _ htcp ip port =>
    exact tidy_up (hcame ⟨rfl, rfl, rfl, .inl rfl⟩) (show Sr.established ≠ _ ∧ Sr.established ≠ _ by decide) (fun _ => htcp)
  | cameUp _ _ hstatus =>
    exact tidy_up (hcame ⟨rfl, rfl, rfl, .inl rfl⟩) (show Sr.established ≠ _ ∧ Sr.established ≠ _ by decide)
      (fun _ => hlinked (.inr (.inl hstatus)))
  | accepted _ _ _ hstatus =>
    exact tidy_up (hcame ⟨rfl, rfl, rfl, .inl rfl⟩) (show Sr.established ≠ _ ∧ Sr.established ≠ _ by decide)
      (fun _ => hlinked (.inl hstatus))
  | ended _ _ _ htcp =>
    exact tidy_up (hcame ⟨rfl, rfl, rfl, .inr rfl⟩) (show Sr.closeWait ≠ _ ∧ Sr.closeWait ≠ _ by decide) (fun _ => htcp)
  | wrote _ _ old taken pending hfd htcp hreq _ hbytes =>
    have htidy : Tidy (CameUp i st.gen posted) { st with fd := some (old ++ taken), txPending := pending } := by
      refine ⟨hst.early, fun _ _ => htcp, fun hup => ?_⟩
      have hadded : added req = [] := by
        cases req with
        | none => rfl
        | some r => exact hdata r rfl (hreq r rfl).1 ((hreq r rfl).2 ▸ hup)
      rw [(hst.clean hup).1, hadded] at hbytes
      obtain ⟨htaken, hpending⟩ := List.append_eq_nil_iff.1 hbytes
      have hold : old ++ taken = [] := by rw [(hst.clean hup).2 old hfd, htaken, List.append_nil]
      exact ⟨hpending, fun handed hhanded => (Option.some.inj hhanded).symm.trans hold⟩
    split
    · exact hsame (hother nofun) htidy
    · exact hsilent htidy

def Flows (i : Fin 4) (g : Nat) (q : List NetRequest) (sent : List Byte) (st : SockState) : Prop :=
  st.gen = g → ∀ handed, st.fd = some handed → handed ++ st.txPending ++ inFlight i g q = sent

theorem Did.flows (h : Did i req st st' ev) (hst : Flows i g (req.toList ++ q) sent st)
    (htidy : Tidy (CameUp i st.gen posted) st) (hsock : ∀ r, req = some r → r.sock = i)
    (hfresh : ∀ r, req = some r → rank r.msg ≤ 2 → ¬ CameUp i r.gen posted)
    (hdata : ∀ r, req = some r → r.msg = .sendTcp → ¬ CameUp i r.gen posted → r.payload = [])
    (hnone : ¬ CameUp i g posted → inFlight i g q = [] ∧ sent = []) : Flows i g q sent st' := by
  have hopened {st' : SockState} {r : NetRequest} (hr : req = some r) (hrank : rank r.msg ≤ 2) (hgen : st'.gen = r.gen)
      (hpending : st'.txPending = []) (hfd : ∀ handed, st'.fd = some handed → handed = []) : Flows i g q sent st' := by
    intro hg handed hhanded
    obtain ⟨hring, hsent⟩ := hnone (hg ▸ hgen ▸ hfresh r hr hrank)
    rw [hfd handed hhanded, hpending, hring, hsent]
    rfl
  have hkept {r : NetRequest} (hr : req = some r) (hmsg : r.msg ≠ .sendTcp) (hgen : st'.gen = st.gen) (hfd : st'.fd = st.fd)
      (hpending : st'.txPending = st.txPending) : Flows i g q sent st' := by
    intro hg handed hhanded
    have hold := hst (hgen.symm.trans hg) handed (hfd ▸ hhanded)
    rw [hr, Option.toList_some, List.singleton_append, inFlight_cons, if_neg (fun hmatch => hmsg hmatch.1)] at hold
    rw [hpending]
    exact hold
  cases h with
  | idle => exact hst
  | received => exact hst
  | datagram => exact hst
  | frame => exact hst
  | cameUp => exact hst
  | ended => exact hst
  | sentUdp r _ hmsg => exact hkept rfl (by rw [hmsg]; nofun) rfl rfl rfl
  | sentRaw r _ hmsg => exact hkept rfl (by intro heq; rw [heq] at hmsg; cases hmsg) rfl rfl rfl
  | connected r _ hmsg => exact hkept rfl (by rw [hmsg]; nofun) rfl rfl rfl
  | connecting r _ hmsg => exact hkept rfl (by rw [hmsg]; nofun) rfl rfl rfl
  | closed | openFailed | connectFailed | refused | broke | dropped => exact fun _ _ h => nomatch h
  | openedTcp r _ hmsg => exact hopened rfl (by rw [hmsg]; decide) rfl rfl (by rintro _ ⟨⟩; rfl)
  | openedUdp r _ hmsg => exact hopened rfl (by rw [hmsg]; decide) rfl rfl (by rintro _ ⟨⟩; rfl)
  | adopted r _ hmsg => exact hopened rfl (by rw [hmsg]; decide) rfl rfl (by rintro _ ⟨⟩; rfl)
  | passed r _ _ hpass =>
    intro hg handed hhanded
    have hold := hst hg handed hhanded
    rw [Option.toList_some, List.singleton_append, inFlight_cons] at hold
    split at hold
    · next hmatch =>
      have hpayload : r.payload = [] := by
        rcases hpass hmatch.1 (hmatch.2.2.trans hg.symm) with hfd | htcp | hnil
        · exact absurd (hfd.symm.trans hhanded) nofun
        · refine hdata r rfl hmatch.1 (fun hup => ?_)
          rw [hmatch.2.2, ← hg] at hup
          rw [htidy.tcp hup (by rw [hhanded]; nofun)] at htcp
          cases htcp
        · exact hnil
      rwa [hpayload] at hold
    · exact hold
  | accepted _ hfd _ hstatus =>
    rintro hg _ ⟨⟩
    obtain ⟨old, hold⟩ := Option.ne_none_iff_exists'.1 hfd
    have hflow := hst hg old hold
    rw [(htidy.clean (htidy.early (.inl hstatus))).2 old hold] at hflow
    exact hflow
  | wrote _ _ old taken pending hfd _ hreq _ hbytes =>
    rintro hg _ ⟨⟩
    have hflow := hst hg old hfd
    have hring : inFlight i g (req.toList ++ q) = added req ++ inFlight i g q := by
      cases req with
      | none => rfl
      | some r =>
        rw [Option.toList_some, List.singleton_append, inFlight_cons,
          if_pos ⟨(hreq r rfl).1, hsock r rfl, (hreq r rfl).2.trans hg⟩]
        rfl
    calc old ++ taken ++ pending ++ inFlight i g q
      _ = old ++ (taken ++ pending) ++ inFlight i g q := by rw [List.append_assoc old]
      _ = old ++ (st.txPending ++ added req) ++ inFlight i g q := by rw [hbytes]
      _ = old ++ st.txPending ++ (added req ++ inFlight i g q) := by simp only [List.append_assoc]
      _ = sent := by rw [← hring]; exact hflow

end

end NetWorker

namespace Net

open Chip NetWorker

structure Carried (handled : List NetRequest) (sent : Fin 4 → List Byte) (s : Chip) : Prop where
  up : ∀ i, Connected (s.sockets i).status → CameUp i (s.sockets i).gen s.worker.posted
  asked : ∀ i g, CameUp i g s.worker.posted → ∃ c ∈ handled, c.sock = i ∧ c.gen = g ∧ rank c.msg = 2
  none : ∀ i g, ¬ CameUp i g s.worker.posted → inFlight i g s.worker.requests = []
  unsent : ∀ i, ¬ CameUp i (s.sockets i).gen s.worker.posted → sent i = []
  tidy : ∀ i, Tidy (CameUp i (s.worker.socks i).gen s.worker.posted) (s.worker.socks i)
  flows : ∀ i, Flows i (s.sockets i).gen s.worker.requests (sent i) (s.worker.socks i)

section

variable {handled : List NetRequest} {sent sent' : Fin 4 → List Byte} {s t : Chip} {i : Fin 4}
  {req : Option NetRequest} {st' : SockState} {ev : Option NetEvent} {w : NetWorker}

theorem Carried.calls (h : Carried handled sent s) (hordered : Ordered handled s) (hcalls : Calls s t)
    (hsame : ∀ i, (t.sockets i).gen = (s.sockets i).gen → sent' i = sent i)
    (hnew : ∀ i, (t.sockets i).gen ≠ (s.sockets i).gen → sent' i = []) : Carried handled sent' t := by
  obtain ⟨l, hl, hnone⟩ := hcalls.requests
  have hring (i : Fin 4) (g : Nat) : inFlight i g t.worker.requests = inFlight i g s.worker.requests := by
    rw [hl, inFlight_append, inFlight_nil hnone, List.append_nil]
  have hposted := hcalls.idle.posted
  have hsocks := hcalls.idle.socks
  refine
    { up := fun i hconnected => ?_
      asked := hposted ▸ h.asked
      none := fun i g hup => ?_
      unsent := fun i hup => ?_
      tidy := by rw [hposted, hsocks]; exact h.tidy
      flows := fun i hgen handed hhanded => ?_ }
  · obtain ⟨hgen, hconnected⟩ := hcalls.connected i hconnected
    rw [hposted, hgen]
    exact h.up i hconnected
  · rw [hposted] at hup
    rw [hring]
    exact h.none i g hup
  · by_cases hgen : (t.sockets i).gen = (s.sockets i).gen
    · rw [hposted, hgen] at hup
      rw [hsame i hgen]
      exact h.unsent i hup
    · exact hnew i hgen
  · rw [hsocks] at hgen hhanded ⊢
    have hle := hordered.gen i
    have hle' := hcalls.gen i
    have hold : (t.sockets i).gen = (s.sockets i).gen := by omega
    rw [hring, hsame i hold, hold]
    exact h.flows i (hgen.trans hold) handed hhanded

theorem Carried.send (h : Carried handled sent s) (hsent : Sent i s t)
    (hup : CameUp i (s.sockets i).gen s.worker.posted)
    (hmore : ∀ j, sent' j = sent j ++ if j = i then s.contents i else []) : Carried handled sent' t := by
  have hposted := hsent.idle.posted
  have hsocks := hsent.idle.socks
  have hring (j : Fin 4) (g : Nat) : inFlight j g t.worker.requests =
      inFlight j g s.worker.requests ++ if i = j ∧ (s.sockets i).gen = g then s.contents i else [] := by
    rw [hsent.requests, inFlight_append, inFlight_cons]
    simp [inFlight]
  refine
    { up := fun j hconnected => ?_
      asked := hposted ▸ h.asked
      none := fun j g hnot => ?_
      unsent := fun j hnot => ?_
      tidy := by rw [hposted, hsocks]; exact h.tidy
      flows := fun j hgen handed hhanded => ?_ }
  · rw [(hsent.sockets j).1] at hconnected
    rw [hposted, (hsent.sockets j).2]
    exact h.up j hconnected
  · rw [hposted] at hnot
    rw [hring, h.none j g hnot, if_neg]
    · rfl
    · rintro ⟨rfl, rfl⟩
      exact hnot hup
  · rw [hposted, (hsent.sockets j).2] at hnot
    rw [hmore, h.unsent j hnot, if_neg]
    · rfl
    · rintro rfl
      exact hnot hup
  · rw [hsocks, (hsent.sockets j).2] at hgen
    rw [hsocks] at hhanded ⊢
    have hflow := h.flows j hgen handed hhanded
    rw [hring, hmore, (hsent.sockets j).2, ← List.append_assoc, hflow]
    by_cases hj : j = i
    · simp [hj]
    · rw [if_neg hj, if_neg (fun hmatch => hj hmatch.1.symm)]

theorem Carried.touch (h : Carried handled sent s) {status : Byte}
    (hstatus : Connected status → CameUp i (s.sockets i).gen s.worker.posted)
    (ht : Touch i status (s.sockets i).gen s.worker.requests s t) : Carried handled sent t := by
  have hposted := ht.idle.posted
  have hsocks := ht.idle.socks
  have hgen (j : Fin 4) : (t.sockets j).gen = (s.sockets j).gen := by
    by_cases hj : j = i
    · rw [hj, ht.gen]
    · exact (ht.others j hj).2
  refine
    { up := fun j hconnected => ?_
      asked := hposted ▸ h.asked
      none := by rw [hposted, ht.requests]; exact h.none
      unsent := fun j => by rw [hposted, hgen]; exact h.unsent j
      tidy := by rw [hposted, hsocks]; exact h.tidy
      flows := fun j => by rw [hgen, ht.requests, hsocks]; exact h.flows j }
  rw [hposted, hgen]
  by_cases hj : j = i
  · rw [hj, ht.status] at hconnected
    rw [hj]
    exact hstatus hconnected
  · exact h.up j ((ht.others j hj).1 ▸ hconnected)

theorem Carried.fresh (h : Carried handled sent s) (hordered : Ordered handled s)
    (hturn : Turn i req st' ev s.worker w) (r : NetRequest) (hr : req = some r) (hrank : rank r.msg ≤ 2) :
    ¬ CameUp i r.gen s.worker.posted := by
  intro hup
  obtain ⟨c, hc, hsock, hgen, hcrank⟩ := h.asked i r.gen hup
  have hmem : r ∈ s.worker.requests := by
    rw [hturn.requests, hr]
    exact List.mem_cons_self
  have hbefore := (List.pairwise_append.1 hordered.sorted).2.2 c hc r hmem (hsock.trans (hturn.sock r hr).symm)
  omega

theorem Carried.turn (h : Carried handled sent s) (hordered : Ordered handled s)
    (hturn : Turn i req st' ev s.worker w) : Carried (handled ++ req.toList) sent { s with worker := w } := by
  have hfresh := h.fresh hordered hturn
  have hring (j : Fin 4) (g : Nat) (hnot : ¬ CameUp j g s.worker.posted) :
      inFlight j g req.toList = [] ∧ inFlight j g w.requests = [] := by
    have hnone := h.none j g hnot
    rwa [hturn.requests, inFlight_append, List.append_eq_nil_iff] at hnone
  have hdata (r : NetRequest) (hr : req = some r) (hmsg : r.msg = .sendTcp) (hnot : ¬ CameUp i r.gen s.worker.posted) :
      r.payload = [] := by
    have hnone := (hring i r.gen hnot).1
    rw [hr, Option.toList_some, inFlight_cons, if_pos ⟨hmsg, hturn.sock r hr, rfl⟩] at hnone
    exact (List.append_eq_nil_iff.1 hnone).1
  have hother {j : Fin 4} (hj : j ≠ i) (g : Nat) :
      CameUp j g (s.worker.posted ++ ev.toList) ↔ CameUp j g s.worker.posted := by
    refine cameUp_quiet (fun e he hcomes => hj (Fin.ext ?_))
    exact hcomes.2.1.symm.trans (he ▸ hturn.did : Did i req (s.worker.socks i) st' (some e)).event.1
  have hlinked (honline : Online (s.worker.socks i).status) : (s.worker.socks i).isTcp = true :=
    (hordered.linked i honline).tcp
  refine
    { up := fun j hconnected => ?_
      asked := fun j g hup => ?_
      none := fun j g hnot => ?_
      unsent := fun j hnot => ?_
      tidy := fun j => ?_
      flows := fun j => ?_ }
  · rw [hturn.posted]
    exact (h.up j hconnected).mono
  · rw [hturn.posted, cameUp_append] at hup
    rcases hup with hold | ⟨e, he, hcomes⟩
    · obtain ⟨c, hc, hrest⟩ := h.asked j g hold
      exact ⟨c, List.mem_append_left _ hc, hrest⟩
    · obtain ⟨hj, hg, honline⟩ := (he ▸ hturn.did : Did i req (s.worker.socks i) st' (some e)).comes hcomes
      rw [hj, hg]
      exact (hturn.did.linked hturn.sock (hordered.linked i) honline).asked
  · rw [hturn.posted] at hnot
    exact (hring j g (fun hold => hnot hold.mono)).2
  · rw [hturn.posted] at hnot
    exact h.unsent j (fun hold => hnot hold.mono)
  · rw [hturn.posted, hturn.socks]
    split
    · next hj =>
      rw [hj]
      exact hturn.did.tidy (h.tidy i) hlinked hfresh hdata
    · next hj =>
      have htidy := h.tidy j
      rwa [← hother hj] at htidy
  · simp only [hturn.socks]
    split
    · next hj =>
      rw [hj]
      have hflows := h.flows i
      rw [hturn.requests] at hflows
      exact hturn.did.flows hflows (h.tidy i) hturn.sock hfresh hdata
        (fun hnot => ⟨(hring i _ hnot).2, h.unsent i hnot⟩)
    · next hj =>
      have hflows := h.flows j
      intro hgen handed hhanded
      have hflow := hflows hgen handed hhanded
      have hskip : inFlight j (s.sockets j).gen req.toList = [] := by
        cases req with
        | none => rfl
        | some r =>
          rw [Option.toList_some, inFlight_cons, if_neg (fun hmatch => hj (hmatch.2.1.symm.trans (hturn.sock r rfl)))]
          rfl
      rwa [hturn.requests, inFlight_append, hskip, List.nil_append] at hflow

end

def Uncrowded (k : Net) : Act → Prop
  | .write address value _ =>
    (address = 0x001A → Holds value k.chip) ∧ ∀ i, k.chip.sends i address value = true → Room i k.chip
  | .advance _ _ | .flush | .apply | .reset _ | .work _ => True

instance (k : Net) : ∀ a, Decidable (Uncrowded k a)
  | .write address value _ =>
    inferInstanceAs (Decidable ((address = 0x001A → Holds value k.chip) ∧
      ∀ i, k.chip.sends i address value = true → Room i k.chip))
  | .advance _ _ | .flush | .apply | .reset _ | .work _ => isTrue trivial

structure Carries (k : Net) : Prop where
  safe : Safe k.chip
  ordered : Ordered k.handled k.chip
  carried : Carried k.handled k.sent k.chip

section

variable {k k' : Net}

theorem Carries.quiet (h : Carries k) {t : Chip} (ht : Safe t) (hquiet : Quiet k.chip t) (taken : Fin 4 → Nat) :
    Carries { k with chip := t, taken := taken } :=
  ⟨ht, h.ordered.asks hquiet.asks,
    h.carried.calls h.ordered hquiet.calls (fun _ _ => rfl) (fun i hne => absurd (hquiet.sockets i).2 hne)⟩

theorem Carries.write (h : Carries k) {address : Nat} {value : Byte} {bound : Bool}
    (hguard : Uncrowded k (.write address value bound)) : Yields (k.step (.write address value bound)) Carries := by
  obtain ⟨t, ht, hsafe⟩ := h.safe.writeAt address value bound hguard.1
  have hboth : Yields (k.chip.writeAt address value bound) (fun u => u = t) := ⟨t, ht, rfl⟩
  refine hboth.bind (fun u hu => yields_some.2 ?_)
  rw [hu]
  refine ⟨hsafe, h.ordered.asks (asks_writeAt h.safe ht), ?_⟩
  rcases writeAt_transmits h.safe hguard.2 ht with ⟨hcalls, hnil⟩ | ⟨i, hsends, hsent⟩
  · refine h.carried.calls h.ordered hcalls (fun i hgen => ?_) (fun i hgen => ?_)
    · simp only [renewed, show (t.sockets i).gen = (k.chip.sockets i).gen from hgen, bne_self_eq_false,
        Bool.false_eq_true, if_false]
      split
      · next hsends => rw [hnil i hsends, List.append_nil]
      · rfl
    · exact if_pos (bne_iff_ne.2 hgen)
  · refine h.carried.send hsent (h.carried.up i (sends_iff.1 hsends).2.2) (fun j => ?_)
    simp only [renewed, (hsent.sockets j).2, bne_self_eq_false, Bool.false_eq_true, if_false]
    by_cases hj : j = i
    · rw [if_pos hj, if_pos (hj ▸ hsends), hj]
    · rw [if_neg hj, if_neg (fun hsends' => hj (sends_inj hsends' hsends)), List.append_nil]

theorem Carries.apply (h : Carries k) : Yields (k.step .apply) Carries := by
  unfold step
  cases hevents : k.chip.worker.events with
  | nil => exact yields_some.2 h
  | cons ev events =>
    simp only
    have hev : ev ∈ k.chip.worker.posted := h.ordered.events ev (by rw [hevents]; exact List.mem_cons_self)
    have hpop : Carried k.handled k.sent (k.chip.popEvent events) :=
      ⟨h.carried.up, h.carried.asked, h.carried.none, h.carried.unsent, h.carried.tidy, h.carried.flows⟩
    obtain ⟨t, ht, _, heffect⟩ := event_effect (h.safe.withWorker { k.chip.worker with events := events }) ev
    obtain ⟨hsafe, hordered⟩ := (h.ordered.event h.safe hevents).of_eq ht
    have hcarried : Carried k.handled k.sent t := by
      rcases heffect with ⟨i, ⟨hevt, hsock, hgen⟩, htouch⟩ | ⟨_, hquiet⟩
      · refine hpop.touch (fun hconnected => ⟨ev, hev, hevt, hsock, hgen, ?_⟩) htouch
        unfold statusAfter at hconnected
        cases hcause : ev.cause with
        | none => exact absurd hcause (h.ordered.cause ev hev hevt)
        | connected => exact .inl rfl
        | remoteClosed => exact .inr rfl
        | reset | failed =>
          rw [hcause] at hconnected
          exact absurd hconnected (show ¬ Connected Sr.closed by decide)
      · exact hpop.calls (h.ordered.popEvent hevents) hquiet.calls (fun _ _ => rfl)
          (fun i hne => absurd (hquiet.sockets i).2 hne)
    have hboth : Yields (({ k.chip with worker := { k.chip.worker with events := events } } : Chip).applyEvent ev)
        (fun u => u = t) := ⟨t, ht, rfl⟩
    refine hboth.bind (fun u hu => yields_some.2 ?_)
    rw [hu]
    exact ⟨hsafe, hordered, hcarried⟩

theorem gen_reset (s : Chip) (powerCycle : Bool) (i : Fin 4) :
    ((s.reset powerCycle).sockets i).gen = (s.sockets i).gen + 1 := by
  unfold reset
  simp only
  refine List.foldlRecOn (motive := fun t : Chip => (t.sockets i).gen = (s.sockets i).gen + 1) _ _ ?_ (fun t ht j _ => ?_)
  · simp only [setTxSizes_sockets, setRxSizes_sockets, setMems_sockets, resetSockets_sockets]
  · exact ((quiet_resetRxtx t j).sockets i).2.trans ht

theorem Carries.reset (h : Carries k) (powerCycle : Bool) : Yields (k.step (.reset powerCycle)) Carries := by
  refine yields_some.2 ⟨h.safe.reset powerCycle, h.ordered.asks (asks_reset k.chip powerCycle), ?_⟩
  refine h.carried.calls h.ordered (effects_reset k.chip powerCycle).calls (fun i hsame => ?_) (fun _ _ => rfl)
  rw [gen_reset] at hsame
  omega

theorem Carries.work (h : Carries k) (st : NetWorker.Step) : Yields (k.step (.work st)) Carries := by
  obtain ⟨st', ev, hturn⟩ := step_turn k.chip.worker st
  exact yields_some.2 ⟨h.safe.withWorker _, h.ordered.turn hturn, h.carried.turn h.ordered hturn⟩

theorem Carries.step (h : Carries k) {a : Act} (hguard : Uncrowded k a) : Yields (k.step a) Carries := by
  cases a with
  | write address value bound => exact h.write hguard
  | advance i n =>
    have hquiet : Quiet k.chip ((k.chip.setMem (reg i 0x28) (getIbyte ((k.chip.rxRd i + n) % 0x10000) 8)).setMem
        (reg i 0x29) (getIbyte ((k.chip.rxRd i + n) % 0x10000) 0)) := (quiet_setMem _ _ _).trans (quiet_setMem _ _ _)
    rw [Net.step, stepOver_eq]
    exact yields_some.2 (h.quiet ((h.safe.setMem _ _).setMem _ _) hquiet _)
  | flush =>
    exact (quiet_flushAll h.safe).bind (fun t ht => yields_some.2 (h.quiet ht.1 ht.2 k.taken))
  | apply => exact h.apply
  | reset powerCycle => exact h.reset powerCycle
  | work st => exact h.work st

theorem carried_blank : Carried [] (fun _ => []) ({} : Chip) where
  up _ h := absurd h (show ¬ Connected Sr.closed by decide)
  asked _ _ h := absurd h (by rintro ⟨e, he, _⟩; exact absurd he List.not_mem_nil)
  none _ _ _ := rfl
  unsent _ _ := rfl
  tidy _ := tidy_closed _ 0
  flows _ := fun _ _ h => nomatch h

theorem carries_start : Carries start where
  safe := safe_start
  ordered := ordered_start
  carried := carried_blank.calls ordered_blank (effects_reset {} true).calls (fun _ _ => rfl) (fun _ _ => rfl)

/-- With room in the ring for every packet, the bytes that the host has been handed over a
connection, those that wait for it and those still in the ring are, in their order, what the guest
has sent. -/
theorem sends_carried (acts : List Act) (h : Guarded step Uncrowded start acts) :
    ∃ k, acts.foldlM step start = some k ∧ ∀ i handed,
      (k.chip.worker.socks i).gen = (k.chip.sockets i).gen → (k.chip.worker.socks i).fd = some handed →
        handed ++ (k.chip.worker.socks i).txPending ++
          inFlight i (k.chip.sockets i).gen k.chip.worker.requests = k.sent i :=
  (h.yields (fun _ _ hguard hk => Carries.step hk hguard) carries_start).mono
    (fun _ hk i handed hgen hhanded => hk.carried.flows i hgen handed hhanded)

end

def talking : List Act := connecting .ok ++ [.apply, .write 0x4000 0x41 false, .write 0x425 0x01 false]

def blocked : List Act := talking ++ [.write 0x401 Cr.send false, .work (.handleRequest .ok .ok [.wouldBlock])]

theorem sends_carried_blocked :
    ∃ k, blocked.foldlM step start = some k ∧ ∀ i handed,
      (k.chip.worker.socks i).gen = (k.chip.sockets i).gen → (k.chip.worker.socks i).fd = some handed →
        handed ++ (k.chip.worker.socks i).txPending ++
          inFlight i (k.chip.sockets i).gen k.chip.worker.requests = k.sent i :=
  sends_carried _ (by decide +kernel)

def crowded : List Act :=
  talking ++ List.replicate 63 (.write 0x501 Cr.close false) ++ [.write 0x401 Cr.send false]

theorem packet_lost :
    ¬ ∀ acts : List Act, ∃ k, acts.foldlM step start = some k ∧ ∀ i handed,
      (k.chip.worker.socks i).gen = (k.chip.sockets i).gen → (k.chip.worker.socks i).fd = some handed →
        handed ++ (k.chip.worker.socks i).txPending ++
          inFlight i (k.chip.sockets i).gen k.chip.worker.requests = k.sent i := by
  intro h
  obtain ⟨k, hk, hi⟩ := h crowded
  have hend : (crowded.foldlM step start).map (fun k =>
      ((k.chip.worker.socks 0).gen == (k.chip.sockets 0).gen, (k.chip.worker.socks 0).fd, (k.chip.worker.socks 0).txPending,
        inFlight 0 (k.chip.sockets 0).gen k.chip.worker.requests, k.sent 0)) = some (true, some [], [], [], [0x41]) := by
    decide +kernel
  simp only [hk, Option.map_some, Option.some.injEq, Prod.mk.injEq, beq_iff_eq] at hend
  obtain ⟨hgen, hfd, hpending, hring, hsent⟩ := hend
  have hflow := hi 0 [] hgen hfd
  rw [hpending, hring, hsent] at hflow
  cases hflow

end Net

end GSSquared.Uthernet
