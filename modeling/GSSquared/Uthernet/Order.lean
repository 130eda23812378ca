/-
The order of the requests.
-/
import GSSquared.Uthernet.Net

set_option linter.all false

namespace GSSquared.Uthernet

open Bits Partial

def rank : NetMsg → Nat
  | .close | .closeHost => 0
  | .openTcp | .openUdp => 1
  | .connect | .adoptListen => 2
  | .sendTcp | .sendUdp | .macRawTx | .ipRawTx => 3

def Before (a b : NetRequest) : Prop :=
  a.sock = b.sock → a.gen < b.gen ∨ a.gen = b.gen ∧ (rank a.msg < rank b.msg ∨ rank b.msg = 3)

def tcpOpen (status : Byte) : Prop :=
  status = Sr.init ∨ status = Sr.listen ∨ status = Sr.synSent ∨ status = Sr.established ∨ status = Sr.closeWait

instance (status : Byte) : Decidable (tcpOpen status) :=
  inferInstanceAs (Decidable (status = Sr.init ∨ status = Sr.listen ∨ status = Sr.synSent ∨ status = Sr.established ∨
    status = Sr.closeWait))

namespace Chip

inductive Course (l : List NetRequest) (st st' : SocketState) : Prop
  | same (hgen : st'.gen = st.gen) (hstatus : st'.status = st.status) (hrank : ∀ r ∈ l, rank r.msg = 3 ∧ st.status ≠ Sr.init)
  | renewed (hgen : st'.gen = st.gen + 1) (hstatus : tcpOpen st'.status → st'.status = Sr.init)
      (hrank : ∀ r ∈ l, rank r.msg ≤ 1)
  | entered (hgen : st'.gen = st.gen) (hinit : st.status = Sr.init) (hstatus : tcpOpen st'.status)
      (hne : st'.status ≠ Sr.init) (hrank : ∀ r ∈ l, rank r.msg = 2)

/-- The chip has asked for `l`, and one socket has changed. -/
structure Asked (i : Fin 4) (l : List NetRequest) (s t : Chip) : Prop where
  course : Course l (s.sockets i) (t.sockets i)
  others : ∀ j, j ≠ i → (t.sockets j).status = (s.sockets j).status ∧ (t.sockets j).gen = (s.sockets j).gen
  requests : t.worker.requests = s.worker.requests ++ l
  idle : Idle s t
  ours : ∀ r ∈ l, r.sock = i ∧ r.gen = (t.sockets i).gen
  sorted : l.Pairwise Before
  tcp : ∀ r ∈ l, r.msg = .openTcp ∨ r.msg = .connect ∨ r.msg = .adoptListen → tcpOpen (t.sockets i).status
  udp : ∀ r ∈ l, r.msg = .openUdp → (t.sockets i).status = Sr.udp

section

variable {s t : Chip} {i : Fin 4} {l : List NetRequest}

theorem posting_eq (r : NetRequest) (q : List NetRequest) : ∃ l, List.Sublist l [r] ∧ posting r q = q ++ l := by
  unfold posting
  cases h : Channel.send ringCapacity q r with
  | none => exact ⟨[], List.nil_sublist _, (List.append_nil q).symm⟩
  | some q' => exact ⟨[r], .refl _, Channel.send_eq_some h⟩

theorem posting_posting (r r' : NetRequest) (q : List NetRequest) :
    ∃ l, List.Sublist l [r, r'] ∧ posting r' (posting r q) = q ++ l := by
  obtain ⟨l, hl, hq⟩ := posting_eq r q
  obtain ⟨l', hl', hq'⟩ := posting_eq r' (posting r q)
  exact ⟨l ++ l', hl.append hl', by rw [hq', hq, List.append_assoc]⟩

theorem asked_of_touch {status : Byte} {gen : Nat} {all l : List NetRequest} {requests : List NetRequest}
    (h : Touch i status gen requests s t) (hl : List.Sublist l all) (hrequests : requests = s.worker.requests ++ l)
    (hcourse : Course all (s.sockets i) (t.sockets i)) (hours : ∀ r ∈ all, r.sock = i ∧ r.gen = gen)
    (hsorted : all.Pairwise Before)
    (htcp : ∀ r ∈ all, r.msg = .openTcp ∨ r.msg = .connect ∨ r.msg = .adoptListen → tcpOpen status)
    (hudp : ∀ r ∈ all, r.msg = .openUdp → status = Sr.udp) : Asked i l s t where
  course := by
    cases hcourse with
    | same hgen hstatus hrank => exact .same hgen hstatus (fun r hr => hrank r (hl.subset hr))
    | renewed hgen hstatus hrank => exact .renewed hgen hstatus (fun r hr => hrank r (hl.subset hr))
    | entered hgen hinit hstatus hne hrank => exact .entered hgen hinit hstatus hne (fun r hr => hrank r (hl.subset hr))
  others := h.others
  requests := h.requests.trans hrequests
  idle := h.idle
  ours r hr := ⟨(hours r (hl.subset hr)).1, (hours r (hl.subset hr)).2.trans h.gen.symm⟩
  sorted := hsorted.sublist hl
  tcp r hr hmsg := h.status.symm ▸ htcp r (hl.subset hr) hmsg
  udp r hr hmsg := h.status.trans (hudp r (hl.subset hr) hmsg)

theorem Quiet.asked (h : Quiet s t) (i : Fin 4) : Asked i [] s t where
  course := .same (h.sockets i).2 (h.sockets i).1 nofun
  others j _ := h.sockets j
  requests := h.requests.trans (List.append_nil _).symm
  idle := h.idle
  ours := nofun
  sorted := .nil
  tcp := nofun
  udp := nofun

theorem Effect.asked (h : Effect i s t) : ∃ l, Asked i l s t ∧ ∀ r ∈ l, rank r.msg ≤ 2 := by
  cases h with
  | quiet h => exact ⟨[], h.asked i, nofun⟩
  | closed how status hhow hstatus h =>
    obtain ⟨l, hl, hq⟩ := posting_eq { msg := how, sock := i, gen := (s.sockets i).gen + 1 } s.worker.requests
    have hrank : rank how = 0 := by rcases hhow with rfl | rfl <;> rfl
    refine ⟨l, asked_of_touch h hl hq (.renewed h.gen ?_ ?_) ?_ (List.pairwise_singleton _ _) ?_ ?_, ?_⟩
    · rw [h.status]
      rcases hstatus with rfl | rfl | rfl <;> decide
    · intro r hr
      rw [List.mem_singleton.1 hr, hrank]
      decide
    · intro r hr
      rw [List.mem_singleton.1 hr]
      exact ⟨rfl, rfl⟩
    · intro r hr
      rw [List.mem_singleton.1 hr]
      rcases hhow with rfl | rfl <;> nofun
    · intro r hr
      rw [List.mem_singleton.1 hr]
      rcases hhow with rfl | rfl <;> nofun
    · intro r hr
      rw [List.mem_singleton.1 (hl.subset hr), hrank]
      decide
  | openedTcp h =>
    obtain ⟨l, hl, hq⟩ := posting_posting { msg := .closeHost, sock := i, gen := (s.sockets i).gen + 1 }
      { msg := .openTcp, sock := i, gen := (s.sockets i).gen + 1 } s.worker.requests
    refine ⟨l, asked_of_touch h hl hq (.renewed h.gen (fun _ => h.status) ?_) ?_ ?_ ?_ ?_, ?_⟩
    · simp [rank]
    · simp
    · simp [Before, rank]
    · simp [tcpOpen]
    · simp
    · intro r hr
      have hmem := hl.subset hr
      simp only [List.mem_cons, List.not_mem_nil, or_false] at hmem
      rcases hmem with rfl | rfl <;> simp [rank]
  | openedUdp port h =>
    obtain ⟨l, hl, hq⟩ := posting_posting { msg := .closeHost, sock := i, gen := (s.sockets i).gen + 1 }
      { msg := .openUdp, sock := i, gen := (s.sockets i).gen + 1, localPort := port } s.worker.requests
    refine ⟨l, asked_of_touch h hl hq (.renewed h.gen ?_ ?_) ?_ ?_ ?_ ?_, ?_⟩
    · rw [h.status]
      decide
    · simp [rank]
    · simp
    · simp [Before, rank]
    · simp
    · simp
    · intro r hr
      have hmem := hl.subset hr
      simp only [List.mem_cons, List.not_mem_nil, or_false] at hmem
      rcases hmem with rfl | rfl <;> simp [rank]
  | connect ip port hinit h =>
    obtain ⟨l, hl, hq⟩ := posting_eq
      { msg := .connect, sock := i, gen := (s.sockets i).gen, destIp := ip, destPort := port } s.worker.requests
    have hne : Sr.synSent ≠ Sr.init := by decide
    refine ⟨l, asked_of_touch h hl hq (.entered h.gen hinit ?_ ?_ ?_) ?_ ?_ ?_ ?_, ?_⟩
    · rw [h.status]
      decide
    · rw [h.status]
      exact hne
    · simp [rank]
    · simp
    · simp
    · simp [tcpOpen]
    · simp
    · intro r hr
      rw [List.mem_singleton.1 (hl.subset hr)]
      simp [rank]
  | listen hinit h =>
    have hne : Sr.listen ≠ Sr.init := by decide
    refine ⟨_, asked_of_touch h (.refl _) rfl (.entered h.gen hinit ?_ ?_ ?_) ?_ ?_ ?_ ?_, ?_⟩
    · rw [h.status]
      decide
    · rw [h.status]
      exact hne
    · simp [rank]
    · simp
    · simp
    · simp [tcpOpen]
    · simp
    · simp [rank]

theorem asked_sendData (h : Safe s) (i : Fin 4) (ht : s.sendData i = some t) : ∃ l, Asked i l s t := by
  rcases effect_sendData h i with hnone | ⟨hsend, _, packet, _, hsome⟩
  · cases ht.symm.trans hnone
    exact ⟨[], (Quiet.refl s).asked i⟩
  · cases ht.symm.trans hsome
    have hquiet := quiet_consume s i
    have hsocket := hquiet.sockets i
    obtain ⟨l, hl, hq⟩ := posting_eq ((s.consume i).sendRequest i packet) (s.consume i).worker.requests
    rw [consume_worker] at hq
    have hne : (s.sockets i).status ≠ Sr.init := by
      intro hinit
      rw [hinit] at hsend
      exact absurd hsend (by decide)
    have hrank : rank ((s.consume i).sendRequest i packet).msg = 3 := by
      unfold sendRequest
      simp only
      split
      · rfl
      split
      · rfl
      split <;> rfl
    have hours : ((s.consume i).sendRequest i packet).sock = i ∧
        ((s.consume i).sendRequest i packet).gen = (s.sockets i).gen := by
      rw [← hsocket.2]
      unfold sendRequest
      simp only
      split
      · exact ⟨rfl, rfl⟩
      split
      · exact ⟨rfl, rfl⟩
      split <;> exact ⟨rfl, rfl⟩
    have hmem {r : NetRequest} (hr : r ∈ l) : r = (s.consume i).sendRequest i packet :=
      List.mem_singleton.1 (hl.subset hr)
    have hrest := post_rest (s.consume i).worker ((s.consume i).sendRequest i packet)
    rw [consume_worker] at hrest
    refine ⟨l, ?_, fun j _ => ?_, ?_, ?_, fun r hr => ?_, ?_, fun r hr hmsg => ?_, fun r hr hmsg => ?_⟩
    · refine .same ?_ ?_ (fun r hr => ⟨?_, hne⟩)
      · rw [post_sockets]
        exact hsocket.2
      · rw [post_sockets]
        exact hsocket.1
      · rw [hmem hr]
        exact hrank
    · rw [post_sockets]
      exact hquiet.sockets j
    · rw [post_worker, post_requests, consume_worker]
      exact hq
    · exact ⟨hrest.1, hrest.2.1, hrest.2.2⟩
    · rw [hmem hr, post_sockets, consume_sockets]
      exact hours
    · exact (List.pairwise_singleton Before _).sublist hl
    · rw [hmem hr] at hmsg
      rcases hmsg with hmsg | hmsg | hmsg <;> rw [hmsg] at hrank <;> cases hrank
    · rw [hmem hr] at hmsg
      rw [hmsg] at hrank
      cases hrank

theorem Course.gen_le {st st' : SocketState} (h : Course l st st') : st.gen ≤ st'.gen := by
  cases h with
  | same hgen => exact Nat.le_of_eq hgen.symm
  | renewed hgen => exact hgen ▸ Nat.le_succ _
  | entered hgen => exact Nat.le_of_eq hgen.symm

theorem Asked.gen_le (h : Asked i l s t) (j : Fin 4) : (s.sockets j).gen ≤ (t.sockets j).gen := by
  by_cases hj : j = i
  · rw [hj]
    exact h.course.gen_le
  · exact Nat.le_of_eq (h.others j hj).2.symm

/-- What the chip does between two looks at its events, whatever the guest asks for. -/
def Asks : Chip → Chip → Prop := Relation.ReflTransGen (fun s t => ∃ i l, Asked i l s t)

/-- The same without a SEND. -/
def Effects : Chip → Chip → Prop := Relation.ReflTransGen (fun s t => ∃ i, Effect i s t)

theorem Effect.effects (h : Effect i s t) : Effects s t := .single ⟨i, h⟩

theorem Quiet.effects (h : Quiet s t) : Effects s t := .single ⟨0, .quiet h⟩

theorem Effects.asks (h : Effects s t) : Asks s t := by
  induction h with
  | refl => exact .refl
  | tail _ hstep ih =>
    obtain ⟨i, heffect⟩ := hstep
    obtain ⟨l, hl, _⟩ := heffect.asked
    exact ih.tail ⟨i, l, hl⟩

theorem Quiet.asks (h : Quiet s t) : Asks s t := h.effects.asks

theorem effects_foldl {f : Chip → Fin 4 → Chip} (hf : ∀ u j, Effects u (f u j)) (is : List (Fin 4)) (s : Chip) :
    Effects s (is.foldl f s) := by
  induction is generalizing s with
  | nil => exact .refl
  | cons j is ih => exact (hf s j).trans (ih (f s j))

theorem quiet_setMems (s : Chip) (l : List (Index × Byte)) : Quiet s (s.setMems l) :=
  quiet_of_eq (setMems_sockets s l) (setMems_worker s l)

theorem quiet_setRxSizes (s : Chip) (value : Byte) : Quiet s (s.setRxSizes value) :=
  ⟨fun _ => ⟨rfl, rfl⟩, rfl, rfl, rfl, rfl⟩

theorem quiet_setTxSizes (s : Chip) (value : Byte) : Quiet s (s.setTxSizes value) :=
  ⟨fun _ => ⟨rfl, rfl⟩, rfl, rfl, rfl, rfl⟩

theorem effects_reset (s : Chip) (powerCycle : Bool) : Effects s (s.reset powerCycle) := by
  have hcleared (u : Chip) (hs : u.sockets = s.sockets) (hw : u.worker = s.worker) :
      Effects s ((List.finRange 4).foldl resetSocket u) :=
    (Quiet.effects (quiet_of_eq hs hw)).trans (effects_foldl (fun u j => (effect_resetSocket u j).effects) _ u)
  unfold reset
  simp only
  refine Relation.ReflTransGen.trans ?_ (effects_foldl (fun u j => (quiet_resetRxtx u j).effects) _ _)
  refine Relation.ReflTransGen.trans ?_ (quiet_setTxSizes _ _).effects
  refine Relation.ReflTransGen.trans ?_ (quiet_setRxSizes _ _).effects
  refine Relation.ReflTransGen.trans ?_ (quiet_setMems _ _).effects
  exact hcleared _ rfl rfl

theorem asks_reset (s : Chip) (powerCycle : Bool) : Asks s (s.reset powerCycle) := (effects_reset s powerCycle).asks

theorem effects_flushAll (h : Safe s) (ht : s.flushAll = some t) : Effects s t :=
  ((quiet_flushAll h).of_eq ht).2.effects

theorem effects_stepOver {n : Nat} (ht : s.stepOver i n = some t) : Effects s t := by
  rw [stepOver_eq] at ht
  cases ht
  exact (quiet_setMem s _ _).effects.trans (quiet_setMem _ _ _).effects

theorem effects_writeAt (h : Safe s) {address : Nat} {value : Byte} {bound : Bool}
    (ht : s.writeAt address value bound = some t) :
    Effects s t ∨ ∃ i u, address = (reg i 0x01).val ∧ value = Cr.send ∧ s.sendData i = some u ∧
      t = u.setMem (reg i 0x01) 0 := by
  have hmem (u : Chip) (a : Index) (v : Byte) : Effects u (u.setMem a v) := (quiet_setMem u a v).effects
  cases writeAt_written ht with
  | command i u haddress hvalue hu ht =>
    by_cases hsend : value = Cr.send
    · refine .inr ⟨i, u, haddress, hsend, ?_, ht⟩
      rw [hsend] at hu
      exact hu
    · rw [ht]
      exact .inl ((((effect_command h i hsend bound).of_eq hu).2.effects).trans (hmem u _ _))
  | reset haddress hvalue ht =>
    rw [ht]
    exact .inl (effects_reset s false)
  | mode haddress mode ht => exact .inl (Quiet.effects (ht ▸ quiet_of_eq rfl rfl))
  | rxSizes haddress ht => exact .inl (ht ▸ (quiet_setRxSizes s value).effects)
  | txSizes ht => exact .inl (ht ▸ (quiet_setTxSizes s value).effects)
  | memory a v haddress ht => exact .inl (ht ▸ hmem s a v)
  | nothing ht => exact .inl (ht ▸ .refl)

theorem asks_writeAt (h : Safe s) {address : Nat} {value : Byte} {bound : Bool}
    (ht : s.writeAt address value bound = some t) : Asks s t := by
  rcases effects_writeAt h ht with heffects | ⟨i, u, -, -, hu, rfl⟩
  · exact heffects.asks
  · obtain ⟨l, hl⟩ := asked_sendData h i hu
    exact Relation.ReflTransGen.trans (.single ⟨i, l, hl⟩) (quiet_setMem u _ _).asks

end

end Chip

namespace NetWorker

def Online (status : Byte) : Prop :=
  status = Sr.listen ∨ status = Sr.synSent ∨ status = Sr.established ∨ status = Sr.closeWait

instance (status : Byte) : Decidable (Online status) :=
  inferInstanceAs (Decidable (status = Sr.listen ∨ status = Sr.synSent ∨ status = Sr.established ∨
    status = Sr.closeWait))

structure Linked (handled : List NetRequest) (i : Fin 4) (st : SockState) : Prop where
  tcp : st.isTcp = true
  fd : st.fd ≠ none
  asked : ∃ c ∈ handled, c.sock = i ∧ c.gen = st.gen ∧ rank c.msg = 2

section

variable {i : Fin 4} {req : Option NetRequest} {st st' : SockState} {ev : Option NetEvent} {e : NetEvent}
  {handled more : List NetRequest}

theorem Linked.mono (h : Linked handled i st) : Linked (handled ++ more) i st := by
  obtain ⟨c, hc, hrest⟩ := h.asked
  exact ⟨h.tcp, h.fd, c, List.mem_append_left _ hc, hrest⟩

theorem Did.gen (h : Did i req st st' ev) : st'.gen = st.gen ∨ ∃ r, req = some r ∧ st'.gen = r.gen := by
  cases h
  case closed r _ => exact .inr ⟨r, rfl, rfl⟩
  case openedTcp r _ => exact .inr ⟨r, rfl, rfl⟩
  case openedUdp r _ => exact .inr ⟨r, rfl, rfl⟩
  case openFailed r _ _ => exact .inr ⟨r, rfl, rfl⟩
  case adopted r _ => exact .inr ⟨r, rfl, rfl⟩
  all_goals exact .inl rfl

theorem Did.event (h : Did i req st st' (some e)) :
    e.sock = i.val ∧ (e.gen = st.gen ∨ ∃ r, req = some r ∧ e.gen = r.gen) ∧ (e.evt = .status → e.cause ≠ .none) := by
  generalize hev : some e = ev at h
  cases h
  case openFailed r _ _ =>
    cases hev
    exact ⟨rfl, .inr ⟨r, rfl, rfl⟩, nofun⟩
  case sentRaw r _ _ =>
    cases hev
    exact ⟨rfl, .inr ⟨r, rfl, rfl⟩, nofun⟩
  case wrote =>
    split at hev
    · cases hev
      exact ⟨rfl, .inl rfl, nofun⟩
    · cases hev
  all_goals
    cases hev
    try exact ⟨rfl, .inl rfl, nofun⟩

theorem Did.linked (h : Did i req st st' ev) (hsock : ∀ r, req = some r → r.sock = i)
    (hst : Online st.status → Linked handled i st) (honline : Online st'.status) :
    Linked (handled ++ req.toList) i st' := by
  have hclosed : ¬ Online Sr.closed := by decide
  have hasked (r : NetRequest) (hr : req = some r) (hmsg : rank r.msg = 2) :
      ∃ c ∈ handled ++ req.toList, c.sock = i ∧ c.gen = r.gen ∧ rank c.msg = 2 :=
    ⟨r, List.mem_append_right _ (by rw [hr]; exact List.mem_singleton_self r), hsock r hr, rfl, hmsg⟩
  cases h with
  | idle | passed | sentUdp | sentRaw | received | datagram | frame => exact (hst honline).mono
  | closed | openFailed | connectFailed | refused | broke | dropped => exact absurd honline hclosed
  | openedTcp => exact absurd honline (show ¬ Online Sr.init by decide)
  | openedUdp => exact absurd honline (show ¬ Online Sr.udp by decide)
  | adopted r _ hmsg => exact ⟨rfl, nofun, hasked r rfl (by rw [hmsg]; rfl)⟩
  | connected r _ hmsg hgen hfd htcp => exact ⟨htcp, hfd, hgen ▸ hasked r rfl (by rw [hmsg]; rfl)⟩
  | connecting r _ hmsg hgen hfd htcp => exact ⟨htcp, hfd, hgen ▸ hasked r rfl (by rw [hmsg]; rfl)⟩
  | cameUp _ hfd hstatus =>
    have hlinked : Linked (handled ++ []) i st := (hst (.inr (.inl hstatus))).mono
    exact ⟨hlinked.tcp, hlinked.fd, hlinked.asked⟩
  | accepted _ hfd hlisten hstatus =>
    have hlinked : Linked (handled ++ []) i st := (hst (.inl hstatus)).mono
    exact ⟨hlinked.tcp, nofun, hlinked.asked⟩
  | wrote =>
    have hlinked : Linked (handled ++ req.toList) i st := (hst honline).mono
    exact ⟨hlinked.tcp, nofun, hlinked.asked⟩
  | ended _ hfd hstatus =>
    have hlinked : Linked (handled ++ []) i st := (hst (.inr (.inr (.inl hstatus)))).mono
    exact ⟨hlinked.tcp, hlinked.fd, hlinked.asked⟩

end

end NetWorker

namespace Chip

open NetWorker

structure Ordered (handled : List NetRequest) (s : Chip) : Prop where
  sorted : (handled ++ s.worker.requests).Pairwise Before
  bound : ∀ r ∈ handled ++ s.worker.requests, r.gen ≤ (s.sockets r.sock).gen
  fresh : ∀ r ∈ handled ++ s.worker.requests, r.gen = (s.sockets r.sock).gen →
    (s.sockets r.sock).status = Sr.init → rank r.msg ≤ 1
  gen : ∀ i, (s.worker.socks i).gen ≤ (s.sockets i).gen
  linked : ∀ i, Online (s.worker.socks i).status → Linked handled i (s.worker.socks i)
  posted : ∀ e ∈ s.worker.posted, ∃ i : Fin 4, e.sock = i.val ∧ e.gen ≤ (s.sockets i).gen
  cause : ∀ e ∈ s.worker.posted, e.evt = .status → e.cause ≠ .none
  events : ∀ e ∈ s.worker.events, e ∈ s.worker.posted

section

variable {handled l : List NetRequest} {s t : Chip} {i : Fin 4}

theorem Ordered.asked (h : Ordered handled s) (hasked : Asked i l s t) : Ordered handled t := by
  have hmono := hasked.gen_le
  have hmem {r : NetRequest} (hr : r ∈ handled ++ t.worker.requests) :
      r ∈ handled ++ s.worker.requests ∨ r ∈ l := by
    rwa [hasked.requests, ← List.append_assoc, List.mem_append] at hr
  refine
    { sorted := ?_
      bound := fun r hr => ?_
      fresh := fun r hr hgen hinit => ?_
      gen := fun j => by rw [hasked.idle.socks]; exact Nat.le_trans (h.gen j) (hmono j)
      linked := by rw [hasked.idle.socks]; exact h.linked
      posted := fun e he => ?_
      cause := by rw [hasked.idle.posted]; exact h.cause
      events := by rw [hasked.idle.posted, hasked.idle.events]; exact h.events }
  · rw [hasked.requests, ← List.append_assoc]
    refine List.pairwise_append.2 ⟨h.sorted, hasked.sorted, fun a ha b hb hsock => ?_⟩
    obtain ⟨hb', hgen⟩ := hasked.ours b hb
    have hbound := h.bound a ha
    have hfresh := h.fresh a ha
    rw [hsock, hb'] at hbound hfresh
    rw [hgen]
    cases hasked.course with
    | same hsame _ hrank =>
      rw [hsame]
      rcases Nat.lt_or_eq_of_le hbound with hlt | heq
      · exact .inl hlt
      · exact .inr ⟨heq, .inr (hrank b hb).1⟩
    | renewed hnew _ _ =>
      rw [hnew]
      exact .inl (Nat.lt_succ_of_le hbound)
    | entered hsame hinit _ _ hrank =>
      rw [hsame]
      rcases Nat.lt_or_eq_of_le hbound with hlt | heq
      · exact .inl hlt
      · refine .inr ⟨heq, .inl ?_⟩
        rw [hrank b hb]
        exact Nat.lt_succ_of_le (hfresh heq hinit)
  · rcases hmem hr with hold | hnew
    · exact Nat.le_trans (h.bound r hold) (hmono r.sock)
    · obtain ⟨hsock, hgen⟩ := hasked.ours r hnew
      exact Nat.le_of_eq (by rw [hgen, hsock])
  · rcases hmem hr with hold | hnew
    · have hbound := h.bound r hold
      by_cases hsock : r.sock = i
      · rw [hsock] at hgen hinit hbound
        cases hasked.course with
        | same hsame hstatus _ =>
          refine h.fresh r hold ?_ ?_
          · rw [hgen, hsame, hsock]
          · rw [hsock, ← hstatus]
            exact hinit
        | renewed hnew _ _ => omega
        | entered _ _ _ hne _ => exact absurd hinit hne
      · obtain ⟨hstatus, hsame⟩ := hasked.others r.sock hsock
        exact h.fresh r hold (hgen.trans hsame) (hstatus.symm.trans hinit)
    · obtain ⟨hsock, _⟩ := hasked.ours r hnew
      rw [hsock] at hinit
      cases hasked.course with
      | same _ hstatus hrank => exact absurd (hstatus.symm.trans hinit) (hrank r hnew).2
      | renewed _ _ hrank => exact hrank r hnew
      | entered _ _ _ hne _ => exact absurd hinit hne
  · rw [hasked.idle.posted] at he
    obtain ⟨j, hsock, hgen⟩ := h.posted e he
    exact ⟨j, hsock, Nat.le_trans hgen (hmono j)⟩

theorem Ordered.asks (h : Ordered handled s) (hasks : Asks s t) : Ordered handled t := by
  induction hasks with
  | refl => exact h
  | tail _ hstep ih =>
    obtain ⟨i, l, hasked⟩ := hstep
    exact ih.asked hasked

def popEvent (events : List NetEvent) (s : Chip) : Chip := { s with worker := { s.worker with events := events } }

theorem Ordered.popEvent (h : Ordered handled s) {ev : NetEvent} {events : List NetEvent}
    (hevents : s.worker.events = ev :: events) : Ordered handled (s.popEvent events) :=
  { h with events := fun e he => h.events e (by rw [hevents]; exact List.mem_cons_of_mem ev he) }

theorem Ordered.touch (h : Ordered handled s) {status : Byte} (hstatus : status ≠ Sr.init)
    (ht : Touch i status (s.sockets i).gen s.worker.requests s t) : Ordered handled t := by
  have hgen (j : Fin 4) : (t.sockets j).gen = (s.sockets j).gen := by
    by_cases hj : j = i
    · rw [hj, ht.gen]
    · exact (ht.others j hj).2
  refine
    { sorted := by rw [ht.requests]; exact h.sorted
      bound := by rw [ht.requests]; exact fun r hr => hgen r.sock ▸ h.bound r hr
      fresh := fun r hr hsame hinit => ?_
      gen := fun j => by rw [ht.idle.socks, hgen]; exact h.gen j
      linked := by rw [ht.idle.socks]; exact h.linked
      posted := fun e he => ?_
      cause := by rw [ht.idle.posted]; exact h.cause
      events := by rw [ht.idle.posted, ht.idle.events]; exact h.events }
  · rw [ht.requests] at hr
    by_cases hsock : r.sock = i
    · rw [hsock, ht.status] at hinit
      exact absurd hinit hstatus
    · exact h.fresh r hr (hsame.trans (hgen r.sock)) ((ht.others r.sock hsock).1.symm.trans hinit)
  · rw [ht.idle.posted] at he
    obtain ⟨j, hsock, hle⟩ := h.posted e he
    exact ⟨j, hsock, by rw [hgen]; exact hle⟩

theorem statusAfter_cases {ev : NetEvent} (h : ev.cause ≠ .none) :
    statusAfter ev = Sr.established ∨ statusAfter ev = Sr.closeWait ∨ statusAfter ev = Sr.closed := by
  unfold statusAfter
  cases hcause : ev.cause with
  | none => exact absurd hcause h
  | connected => exact .inl rfl
  | remoteClosed => exact .inr (.inl rfl)
  | reset | failed => exact .inr (.inr rfl)

theorem Ordered.event (h : Ordered handled s) (hs : Safe s) {ev : NetEvent} {events : List NetEvent}
    (hevents : s.worker.events = ev :: events) :
    Yields ((s.popEvent events).applyEvent ev) (fun t => Safe t ∧ Ordered handled t) := by
  have hmem : ev ∈ s.worker.posted := h.events ev (by rw [hevents]; exact List.mem_cons_self)
  have hpop := h.popEvent hevents
  refine (event_effect (hs.withWorker _) ev).mono (fun t ht => ⟨ht.1, ?_⟩)
  rcases ht.2 with ⟨i, hreach, htouch⟩ | ⟨_, hquiet⟩
  · refine hpop.touch ?_ htouch
    rcases statusAfter_cases (h.cause ev hmem hreach.1) with hst | hst | hst <;> rw [hst] <;> decide
  · exact hpop.asks hquiet.asks

theorem mem_pushed {ev : Option NetEvent} {q : List NetEvent} {e : NetEvent} (h : e ∈ pushed ev q) :
    e ∈ q ∨ ev = some e := by
  unfold pushed at h
  cases ev with
  | none => exact .inl h
  | some e' =>
    cases hsend : Channel.send ringCapacity q e' with
    | none =>
      simp only [hsend, Option.getD_none] at h
      exact .inl h
    | some q' =>
      simp only [hsend, Option.getD_some, Channel.send_eq_some hsend, List.mem_append, List.mem_singleton] at h
      exact h.imp_right (congrArg some ·.symm)

theorem Ordered.turn (h : Ordered handled s) {req : Option NetRequest} {st' : SockState}
    {ev : Option NetEvent} {w : NetWorker} (hturn : Turn i req st' ev s.worker w) :
    Ordered (handled ++ req.toList) { s with worker := w } := by
  have hrequests : handled ++ req.toList ++ w.requests = handled ++ s.worker.requests := by
    rw [hturn.requests, List.append_assoc]
  have hreq (r : NetRequest) (hr : req = some r) : r.sock = i ∧ r.gen ≤ (s.sockets i).gen := by
    have hsock := hturn.sock r hr
    refine ⟨hsock, hsock ▸ h.bound r ?_⟩
    rw [hturn.requests, hr]
    simp
  refine
    { sorted := by rw [hrequests]; exact h.sorted
      bound := by rw [hrequests]; exact h.bound
      fresh := by rw [hrequests]; exact h.fresh
      gen := fun j => ?_
      linked := fun j => ?_
      posted := fun e he => ?_
      cause := fun e he => ?_
      events := fun e he => ?_ }
  · simp only [hturn.socks]
    split
    · next hj =>
      rw [hj]
      rcases hturn.did.gen with hgen | ⟨r, hr, hgen⟩
      · exact hgen ▸ h.gen i
      · exact hgen ▸ (hreq r hr).2
    · exact h.gen j
  · simp only [hturn.socks]
    split
    · next hj =>
      rw [hj]
      exact hturn.did.linked hturn.sock (h.linked i)
    · exact fun honline => (h.linked j honline).mono
  · rw [hturn.posted, List.mem_append] at he
    rcases he with hold | hnew
    · exact h.posted e hold
    · obtain ⟨hsock, hgen, _⟩ := (Option.mem_toList.1 hnew ▸ hturn.did : Did i req (s.worker.socks i) st' (some e)).event
      refine ⟨i, hsock, ?_⟩
      rcases hgen with hgen | ⟨r, hr, hgen⟩
      · exact hgen ▸ h.gen i
      · exact hgen ▸ (hreq r hr).2
  · rw [hturn.posted, List.mem_append] at he
    rcases he with hold | hnew
    · exact h.cause e hold
    · exact (Option.mem_toList.1 hnew ▸ hturn.did : Did i req (s.worker.socks i) st' (some e)).event.2.2
  · rw [hturn.events] at he
    rw [hturn.posted, List.mem_append]
    exact (mem_pushed he).imp (h.events e) (fun hnew => by rw [hnew]; exact List.mem_singleton_self e)

end

end Chip

namespace Net

open Chip

def isGuest : Act → Bool
  | .write _ _ _ | .advance _ _ | .flush | .reset _ => true
  | .apply | .work _ => false

section

variable {k k' : Net} {a : Act}

theorem step_asks (h : Safe k.chip) (hguest : isGuest a = true)
    (hholds : ∀ value bound, a = .write 0x001A value bound → Holds value k.chip) :
    Yields (k.step a) (fun k' =>
      Safe k'.chip ∧ Asks k.chip k'.chip ∧ k'.handled = k.handled ∧ k'.applied = k.applied) := by
  cases a with
  | write address value bound =>
    obtain ⟨t, ht, hsafe⟩ := h.writeAt address value bound (fun heq => hholds value bound (by rw [heq]))
    have hboth : Yields (k.chip.writeAt address value bound) (fun u => Safe u ∧ Asks k.chip u) :=
      ⟨t, ht, hsafe, asks_writeAt h ht⟩
    exact hboth.bind (fun u hu => yields_some.2 ⟨hu.1, hu.2, rfl, rfl⟩)
  | advance i n =>
    have hboth : Yields (k.chip.stepOver i n) (fun u => Safe u ∧ Asks k.chip u) :=
      ⟨_, stepOver_eq i n k.chip, (h.setMem _ _).setMem _ _, (effects_stepOver (stepOver_eq i n k.chip)).asks⟩
    exact hboth.bind (fun u hu => yields_some.2 ⟨hu.1, hu.2, rfl, rfl⟩)
  | flush =>
    obtain ⟨t, ht, hsafe⟩ := h.flushAll
    have hboth : Yields k.chip.flushAll (fun u => Safe u ∧ Asks k.chip u) := ⟨t, ht, hsafe, (effects_flushAll h ht).asks⟩
    exact hboth.bind (fun u hu => yields_some.2 ⟨hu.1, hu.2, rfl, rfl⟩)
  | reset powerCycle => exact ⟨_, rfl, h.reset powerCycle, asks_reset k.chip powerCycle, rfl, rfl⟩
  | apply | work => cases hguest

theorem ordered_blank : Ordered [] ({} : Chip) where
  sorted := .nil
  bound _ hr := absurd hr List.not_mem_nil
  fresh _ hr := absurd hr List.not_mem_nil
  gen _ := Nat.le_refl 0
  linked _ honline := absurd honline (show ¬ NetWorker.Online Sr.closed by decide)
  posted _ he := absurd he List.not_mem_nil
  cause _ he := absurd he List.not_mem_nil
  events _ he := absurd he List.not_mem_nil

theorem ordered_start : Ordered start.handled start.chip := ordered_blank.asks (asks_reset {} true)

end

end Net

end GSSquared.Uthernet
