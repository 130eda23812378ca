/-
What the worker has to say reaches the chip. A Status or a SendDone posted into a full ring is lost.
-/
import GSSquared.Uthernet.Order

set_option linter.all false

namespace GSSquared.Uthernet

open Bits Partial

def isNews (e : NetEvent) : Bool := e.evt == .status || e.evt == .sendDone

namespace NetWorker

/-- Whether the answers of `::send` take so many bytes, or end the connection. -/
def settles : List SendResult → Nat → Bool
  | _, 0 => true
  | .took n :: results, m + 1 => n == 0 || settles results (m + 1 - n)
  | .error _ :: _, _ + 1 => true
  | .wouldBlock :: _, _ + 1 | [], _ + 1 => false

def answers (req : NetRequest) (answer bound : HostResult) (results : List SendResult) (w : NetWorker) : Bool :=
  let st := w.socks req.sock
  match req.msg with
  | .openTcp => answer != .ok
  | .openUdp => answer != .ok || req.localPort != 0 && bound != .ok
  | .connect => req.gen == st.gen && st.fd != none && st.isTcp && answer != .wouldBlock
  | .sendTcp =>
    req.gen == st.gen && st.fd != none && st.isTcp && req.payload != [] &&
      settles results (st.txPending ++ req.payload).length
  | .sendUdp => req.gen == st.gen && st.fd != none && req.payload != []
  | .macRawTx | .ipRawTx => true
  | .close | .closeHost | .adoptListen => false

def reports (w : NetWorker) : Step → Option (Fin 4 × Nat)
  | .handleRequest answer bound results =>
    match w.requests with
    | req :: _ => if w.answers req answer bound results then some (req.sock, req.gen) else none
    | [] => none
  | .pollConnect sock answer =>
    let st := w.socks sock
    if st.fd != none && st.status == Sr.synSent && answer != .wouldBlock then some (sock, st.gen) else none
  | .pollAccept sock peer =>
    let st := w.socks sock
    if st.fd != none && st.listening && st.status == Sr.listen && peer.isSome then some (sock, st.gen) else none
  | .pollSend sock results =>
    let st := w.socks sock
    if st.fd != none && st.status != Sr.synSent && st.isTcp && st.txPending != [] &&
        settles results st.txPending.length then some (sock, st.gen)
    else none
  | .pollRecv _ _ | .pollUdp _ _ _ _ | .slirpRx _ => none

section

variable {w t : NetWorker} {i : Fin 4} {gen : Nat} {e : NetEvent}

/-- Nothing has been posted, or one event of the socket and the generation, which `told` says when
it is news. -/
def Posts (i : Fin 4) (gen : Nat) (told : Bool) (w t : NetWorker) : Prop :=
  t.posted = w.posted ∨ ∃ e, t.posted = w.posted ++ [e] ∧ (isNews e = true → told = true ∧ e.sock = i.val ∧ e.gen = gen)

theorem sendLoop_settles (results : List SendResult) (pending taken : List Byte)
    (h : settles results pending.length = false) :
    (sendLoop results pending taken).1 ≠ [] ∧ (sendLoop results pending taken).2.2 = none := by
  induction results generalizing pending taken with
  | nil =>
    cases pending with
    | nil => cases h
    | cons b pending => exact ⟨List.cons_ne_nil b pending, rfl⟩
  | cons r results ih =>
    cases pending with
    | nil => cases r <;> cases h
    | cons b pending =>
      cases r with
      | wouldBlock => exact ⟨List.cons_ne_nil b pending, rfl⟩
      | error err => cases h
      | took n =>
        rw [List.length_cons, settles, Bool.or_eq_false_iff, beq_eq_false_iff_ne] at h
        rw [sendLoop.eq_5 _ _ _ _ (List.cons_ne_nil b pending), if_pos (Nat.pos_of_ne_zero h.1)]
        refine ih _ _ ?_
        rw [List.length_drop, List.length_cons]
        exact h.2

theorem posts_flush (results : List SendResult) {st : SockState} (hst : w.socks i = st) :
    Posts i st.gen (settles results st.txPending.length) w (w.flushTcpTx i results) := by
  unfold flushTcpTx
  simp only [hst]
  split
  · exact .inl rfl
  split
  · exact .inl rfl
  · have hsettles := sendLoop_settles results st.txPending []
    generalize hloop : sendLoop results st.txPending [] = loop at hsettles
    obtain ⟨pending, taken, failed⟩ := loop
    simp only at hsettles ⊢
    have htold (h : pending = [] ∨ failed ≠ none) : settles results st.txPending.length = true := by
      by_contra hfalse
      rw [Bool.not_eq_true] at hfalse
      rcases h with h | h
      · exact (hsettles hfalse).1 h
      · exact h (hsettles hfalse).2
    cases failed with
    | some err =>
      refine .inr ⟨_, rfl, fun _ => ⟨htold (.inr nofun), rfl, ?_⟩⟩
      simp only [closeState_setSock, setSock_socks]
    | none =>
      simp only
      split
      · next hnil => exact .inr ⟨_, rfl, fun _ => ⟨htold (.inl hnil), rfl, rfl⟩⟩
      · exact .inl rfl

theorem posts_event {told : Bool} (h : t.posted = w.posted ++ [e]) (htold : told = true) (hsock : e.sock = i.val)
    (hgen : e.gen = gen) : Posts i gen told w t := .inr ⟨e, h, fun _ => ⟨htold, hsock, hgen⟩⟩

theorem posts_handleRequest (req : NetRequest) (answer bound : HostResult) (results : List SendResult) (w : NetWorker) :
    Posts req.sock req.gen (w.answers req answer bound results) w (w.handleRequest req answer bound results) := by
  unfold handleRequest answers
  cases hmsg : req.msg with
  | openTcp =>
    simp only [definesGen, if_true, Bool.not_true, Bool.false_and, if_false, setSock_socks, Bool.false_eq_true]
    cases answer with
    | ok => exact .inl rfl
    | wouldBlock => exact posts_event rfl rfl rfl (by simp only [closeState_setSock, setSock_socks])
    | error err => exact posts_event rfl rfl rfl (by simp only [closeState_setSock, setSock_socks])
  | openUdp =>
    simp only [definesGen, if_true, Bool.not_true, Bool.false_and, if_false, setSock_socks, Bool.false_eq_true]
    by_cases hport : req.localPort = 0
    · cases answer <;> simp only [hport, if_true]
      · exact .inl rfl
      all_goals exact posts_event rfl rfl rfl (by simp only [closeState_setSock, setSock_socks])
    · cases answer <;> cases bound <;> simp only [hport, if_false]
      · exact .inl rfl
      all_goals
        refine posts_event rfl ?_ rfl (by simp only [closeState_setSock, setSock_socks])
        first | rfl | simp [hport]
  | adoptListen | close | closeHost => exact .inl rfl
  | connect =>
    simp only [definesGen, isRaw, Bool.false_eq_true, if_false, Bool.not_false, Bool.true_and, Bool.and_true, bne_iff_ne]
    split
    · exact .inl rfl
    · next hgen =>
      split
      · exact .inl rfl
      · next hlive =>
        rw [not_not] at hgen
        rw [not_or, Bool.not_eq_false] at hlive
        cases answer with
        | ok => exact posts_event rfl (by simp [hgen, hlive]) rfl (by rw [setSock_socks]; exact hgen.symm)
        | wouldBlock => exact .inl rfl
        | error err =>
          refine posts_event rfl (by simp [hgen, hlive]) rfl ?_
          rw [closeState, setSock_socks]
          exact hgen.symm
  | sendTcp =>
    simp only [definesGen, isRaw, Bool.false_eq_true, if_false, Bool.not_false, Bool.true_and, Bool.and_true, bne_iff_ne]
    split
    · exact .inl rfl
    · next hgen =>
      split
      · exact .inl rfl
      · next hlive =>
        rw [not_not] at hgen
        rw [not_or, not_or, Bool.not_eq_false] at hlive
        have htold : (req.gen == (w.socks req.sock).gen && (w.socks req.sock).fd != none &&
            (w.socks req.sock).isTcp && req.payload != [] &&
              settles results ((w.socks req.sock).txPending ++ req.payload).length) =
            settles results ((w.socks req.sock).txPending ++ req.payload).length := by
          simp [hgen, hlive]
        rw [htold, hgen]
        exact posts_flush results (setSock_socks w req.sock _)
  | sendUdp =>
    simp only [definesGen, isRaw, Bool.false_eq_true, if_false, Bool.not_false, Bool.true_and, Bool.and_true, bne_iff_ne]
    split
    · exact .inl rfl
    · next hgen =>
      split
      · exact .inl rfl
      · next hlive =>
        rw [not_not] at hgen
        rw [not_or] at hlive
        cases answer <;> exact posts_event rfl (by simp [hgen, hlive]) rfl hgen.symm
  | macRawTx | ipRawTx =>
    simp only [definesGen, isRaw, Bool.false_eq_true, if_false, Bool.not_false, Bool.not_true, Bool.true_and, Bool.and_false]
    exact posts_event rfl rfl rfl rfl

theorem step_posts (w : NetWorker) (st : Step) :
    (w.step st).posted = w.posted ∨ ∃ e, (w.step st).posted = w.posted ++ [e] ∧
      (isNews e = true →
        w.events.length < ringCapacity ∨ ∃ i : Fin 4, e.sock = i.val ∧ w.reports st = some (i, e.gen)) := by
  have hpoll {i : Fin 4} {gen : Nat} {told : Bool} {t : NetWorker} (h : Posts i gen told w t) :
      t.posted = w.posted ∨ ∃ e, t.posted = w.posted ++ [e] ∧
        (isNews e = true → w.events.length < ringCapacity ∨
          ∃ j : Fin 4, e.sock = j.val ∧ (if told then some (i, gen) else none) = some (j, e.gen)) := by
    refine h.imp_right (fun ⟨e, hposted, hnews⟩ => ⟨e, hposted, fun he => .inr ?_⟩)
    obtain ⟨htold, hsock, hgen⟩ := hnews he
    exact ⟨i, hsock, by rw [if_pos htold, hgen]⟩
  have hroom {t : NetWorker} (e : NetEvent) (hcan : ¬ Channel.canSend ringCapacity w.events = false)
      (hposted : t.posted = w.posted ++ [e]) :
      t.posted = w.posted ∨ ∃ e, t.posted = w.posted ++ [e] ∧
        (isNews e = true → w.events.length < ringCapacity ∨
          ∃ j : Fin 4, e.sock = j.val ∧ (none : Option (Fin 4 × Nat)) = some (j, e.gen)) :=
    .inr ⟨e, hposted, fun _ => .inl (by simpa [Channel.canSend] using hcan)⟩
  cases st with
  | handleRequest answer bound results =>
    unfold step reports
    cases hrequests : w.requests with
    | nil => exact .inl rfl
    | cons req rest => exact hpoll (posts_handleRequest req answer bound results { w with requests := rest })
  | pollConnect sock answer =>
    refine hpoll (t := w.pollConnect sock answer) ?_
    unfold pollConnect
    simp only
    split
    · exact .inl rfl
    · next hlive =>
      rw [not_or, not_not] at hlive
      cases answer with
      | ok => exact posts_event rfl (by simp [hlive]) rfl (by rw [setSock_socks])
      | wouldBlock => exact .inl rfl
      | error err => exact posts_event rfl (by simp [hlive]) rfl (by rw [closeState, setSock_socks])
  | pollAccept sock peer =>
    refine hpoll (t := w.pollAccept sock peer) ?_
    unfold pollAccept
    simp only
    split
    · exact .inl rfl
    · next hlive =>
      rw [not_or, not_or, not_not, Bool.not_eq_false] at hlive
      cases peer with
      | none => exact .inl rfl
      | some peer => exact posts_event rfl (by simp [hlive]) rfl (by rw [setSock_socks])
  | pollSend sock results =>
    refine hpoll (t := w.pollSend sock results) ?_
    unfold pollSend
    simp only
    split
    · exact .inl rfl
    · next hlive =>
      rw [not_or, not_or, not_or, Bool.not_eq_false] at hlive
      have htold : ((w.socks sock).fd != none && (w.socks sock).status != Sr.synSent && (w.socks sock).isTcp &&
          (w.socks sock).txPending != [] && settles results (w.socks sock).txPending.length) =
          settles results (w.socks sock).txPending.length := by
        simp [hlive]
      rw [htold]
      exact posts_flush results rfl
  | pollRecv sock answer =>
    unfold step pollRecv reports
    simp only
    split
    · exact .inl rfl
    split
    · exact .inl rfl
    · next hcan =>
      split
      · exact .inl rfl
      cases answer with
      | wouldBlock => exact .inl rfl
      | error err => exact hroom _ hcan rfl
      | data bytes =>
        simp only
        split
        · exact hroom _ hcan rfl
        · exact hroom _ hcan rfl
  | pollUdp sock answer ip port =>
    unfold step pollUdp reports
    simp only
    split
    · exact .inl rfl
    split
    · exact .inl rfl
    · next hcan =>
      cases answer with
      | wouldBlock => exact .inl rfl
      | error err => exact .inl rfl
      | data bytes =>
        simp only
        split
        · exact .inl rfl
        · exact hroom _ hcan rfl
  | slirpRx bytes =>
    unfold step slirpRx reports
    simp only
    split
    · exact .inl rfl
    · next hcan => exact hroom _ hcan rfl

end

end NetWorker

def newsOf (i : Fin 4) (gen : Nat) (e : NetEvent) : Bool := isNews e && e.sock == i.val && e.gen == gen

def statusOf (i : Fin 4) (gen : Nat) (e : NetEvent) : Bool := e.evt == .status && e.sock == i.val && e.gen == gen

namespace Net

open Chip NetWorker

def Roomy (k : Net) : Act → Prop
  | .write address value _ => address = 0x001A → Holds value k.chip
  | .work st =>
    match k.chip.worker.reports st with
    | some (i, gen) => gen = (k.chip.sockets i).gen → k.chip.worker.events.length < ringCapacity
    | none => True
  | .advance _ _ | .flush | .apply | .reset _ => True

instance (k : Net) : ∀ a, Decidable (Roomy k a)
  | .write address value _ => inferInstanceAs (Decidable (address = 0x001A → Holds value k.chip))
  | .work st => by
      unfold Roomy
      simp only
      split <;> infer_instance
  | .advance _ _ | .flush | .apply | .reset _ => isTrue trivial

structure Delivered (applied : List NetEvent) (s : Chip) : Prop where
  known : ∀ e ∈ applied, e ∈ s.worker.posted
  news : ∀ i, s.worker.posted.filter (newsOf i (s.sockets i).gen) =
    applied.filter (newsOf i (s.sockets i).gen) ++ s.worker.events.filter (newsOf i (s.sockets i).gen)
  early : ∀ i, (s.sockets i).status = Sr.init ∨ (s.sockets i).status = Sr.synSent →
    ∀ e ∈ applied, statusOf i (s.sockets i).gen e = false

section

variable {k : Net} {s t : Chip} {i : Fin 4} {handled l : List NetRequest} {applied : List NetEvent}

theorem newsOf_later (h : Ordered handled s) {gen : Nat} (hgen : (s.sockets i).gen < gen) {e : NetEvent}
    (he : e ∈ s.worker.posted) : ¬ (e.sock = i.val ∧ e.gen = gen) := by
  rintro ⟨hsock, heq⟩
  obtain ⟨j, hj, hle⟩ := h.posted e he
  rw [Fin.ext (hj.symm.trans hsock)] at hle
  omega

theorem Delivered.asked (h : Delivered applied s) (hordered : Ordered handled s) (hasked : Asked i l s t) :
    Delivered applied t := by
  have hold (j : Fin 4) : (t.sockets j).gen = (s.sockets j).gen ∨
      ∀ e ∈ s.worker.posted, ¬ (e.sock = j.val ∧ e.gen = (t.sockets j).gen) := by
    rcases Nat.lt_or_eq_of_le (hasked.gen_le j) with hlt | heq
    · exact .inr (fun e he => newsOf_later hordered hlt he)
    · exact .inl heq.symm
  refine ⟨by rw [hasked.idle.posted]; exact h.known, fun j => ?_, fun j hstatus e he => ?_⟩
  · rw [hasked.idle.posted, hasked.idle.events]
    rcases hold j with hgen | hnone
    · rw [hgen]
      exact h.news j
    · have hnil {es : List NetEvent} (hes : ∀ e ∈ es, e ∈ s.worker.posted) :
          es.filter (newsOf j (t.sockets j).gen) = [] := by
        refine List.filter_eq_nil_iff.2 (fun e he hnews => hnone e (hes e he) ?_)
        simp only [newsOf, Bool.and_eq_true, beq_iff_eq] at hnews
        exact ⟨hnews.1.2, hnews.2⟩
      rw [hnil (fun _ he => he), hnil h.known, hnil hordered.events]
      rfl
  · rcases hold j with hgen | hnone
    · rw [hgen]
      refine h.early j ?_ e he
      by_cases hj : j = i
      · subst hj
        cases hasked.course with
        | same _ hsame _ => exact hsame ▸ hstatus
        | renewed hnew => omega
        | entered _ hinit => exact .inl hinit
      · exact (hasked.others j hj).1 ▸ hstatus
    · have := hnone e (h.known e he)
      simp only [statusOf, Bool.and_eq_false_iff, beq_eq_false_iff_ne]
      by_cases hsock : e.sock = j.val
      · exact .inr (fun hgen => this ⟨hsock, hgen⟩)
      · exact .inl (.inr hsock)

theorem discards_of_gen {ev : NetEvent} (hsock : ev.sock = i.val) (hgen : ev.gen = (s.sockets i).gen) :
    s.discards ev = false := by
  obtain ⟨i, hlt⟩ := i
  subst hsock
  rw [discards, dif_pos hlt, hgen]
  simp

theorem Delivered.event (h : Delivered applied s) (hordered : Ordered handled s) {ev : NetEvent}
    {events : List NetEvent} (hevents : s.worker.events = ev :: events)
    (hidle : Idle (s.popEvent events) t) (hgen : ∀ j, (t.sockets j).gen = (s.sockets j).gen)
    (hstatus : ∀ j, statusOf j (s.sockets j).gen ev = true ∧
        ((t.sockets j).status ≠ Sr.init ∧ (t.sockets j).status ≠ Sr.synSent) ∨
      statusOf j (s.sockets j).gen ev = false ∧ (t.sockets j).status = (s.sockets j).status) :
    Delivered (if s.discards ev then applied else applied ++ [ev]) t := by
  have hposted : t.worker.posted = s.worker.posted := hidle.posted
  have hrest : t.worker.events = events := hidle.events
  have hev : ev ∈ s.worker.posted := hordered.events ev (by rw [hevents]; exact List.mem_cons_self)
  have hmem {e : NetEvent} (he : e ∈ (if s.discards ev then applied else applied ++ [ev])) : e ∈ applied ∨ e = ev := by
    split at he
    · exact .inl he
    · simpa using he
  refine ⟨fun e he => ?_, fun j => ?_, fun j hconnecting e he => ?_⟩
  · rw [hposted]
    exact (hmem he).elim (h.known e) (fun heq => heq ▸ hev)
  · have hnews := h.news j
    rw [hevents] at hnews
    rw [hposted, hrest, hgen, hnews]
    cases htold : newsOf j (s.sockets j).gen ev with
    | true =>
      have htold' := htold
      simp only [newsOf, Bool.and_eq_true, beq_iff_eq] at htold'
      rw [discards_of_gen htold'.1.2 htold'.2]
      simp [htold]
    | false =>
      split
      · simp [htold]
      · simp [htold]
  · rw [hgen]
    rcases hstatus j with ⟨_, hne⟩ | ⟨hother, hsame⟩
    · rcases hconnecting with hinit | hsyn
      · exact absurd hinit hne.1
      · exact absurd hsyn hne.2
    · rw [hsame] at hconnecting
      exact (hmem he).elim (h.early j hconnecting e) (fun heq => heq ▸ hother)

theorem filter_pushed {p : NetEvent → Bool} {ev : Option NetEvent} {q : List NetEvent}
    (h : ∀ e, ev = some e → p e = true → q.length < ringCapacity) :
    (pushed ev q).filter p = q.filter p ++ ev.toList.filter p := by
  cases ev with
  | none => exact (List.append_nil _).symm
  | some e =>
    by_cases hroom : q.length < ringCapacity
    · simp [pushed, Channel.send_of_room hroom]
    · have hp : p e = false := by
        rw [← Bool.not_eq_true]
        exact fun hp => hroom (h e rfl hp)
      simp [pushed, Channel.send_of_full hroom, hp]

theorem Delivered.turn (h : Delivered applied s) {req : Option NetRequest} {st' : SockState} {ev : Option NetEvent}
    {w : NetWorker} (hturn : Turn i req st' ev s.worker w)
    (hroom : ∀ j e, ev = some e → newsOf j (s.sockets j).gen e = true → s.worker.events.length < ringCapacity) :
    Delivered applied { s with worker := w } where
  known e he := by rw [hturn.posted]; exact List.mem_append_left _ (h.known e he)
  news j := by
    simp only [hturn.posted, hturn.events, List.filter_append, h.news j, filter_pushed (hroom j), List.append_assoc]
  early := h.early

structure Told (k : Net) : Prop where
  safe : Safe k.chip
  ordered : Ordered k.handled k.chip
  delivered : Delivered k.applied k.chip

structure Took (k k' : Net) : Prop where
  told : Told k'
  events : k'.chip.worker.events = k.chip.worker.events.tail
  posted : k'.chip.worker.posted = k.chip.worker.posted
  gen : ∀ j, (k'.chip.sockets j).gen = (k.chip.sockets j).gen

theorem Told.apply (h : Told k) : Yields (k.step .apply) (Took k) := by
  unfold step
  cases hevents : k.chip.worker.events with
  | nil => exact yields_some.2 ⟨h, by rw [hevents]; rfl, rfl, fun _ => rfl⟩
  | cons ev events =>
    simp only
    have hev : ev ∈ k.chip.worker.posted := h.ordered.events ev (by rw [hevents]; exact List.mem_cons_self)
    obtain ⟨t, ht, _, heffect⟩ := event_effect (h.safe.withWorker { k.chip.worker with events := events }) ev
    obtain ⟨hsafe, hordered⟩ := (h.ordered.event h.safe hevents).of_eq ht
    have hother (j : Fin 4) (hnot : ¬ Reaches j ev k.chip) : statusOf j (k.chip.sockets j).gen ev = false := by
      rw [← Bool.not_eq_true]
      intro htrue
      simp only [statusOf, Bool.and_eq_true, beq_iff_eq] at htrue
      exact hnot ⟨htrue.1.1, htrue.1.2, htrue.2⟩
    have hdone (hidle : Idle (k.chip.popEvent events) t) (hgen : ∀ j, (t.sockets j).gen = (k.chip.sockets j).gen)
        (hdelivered : Delivered (if k.chip.discards ev then k.applied else k.applied ++ [ev]) t) :
        Took k { k with chip := t, applied := if k.chip.discards ev then k.applied else k.applied ++ [ev] } :=
      ⟨⟨hsafe, hordered, hdelivered⟩, by rw [hevents]; exact hidle.events, hidle.posted, hgen⟩
    have hboth : Yields (({ k.chip with worker := { k.chip.worker with events := events } } : Chip).applyEvent ev)
        (fun u => Took k { k with chip := u, applied := if k.chip.discards ev then k.applied else k.applied ++ [ev] }) := by
      refine ⟨t, ht, ?_⟩
      rcases heffect with ⟨i, hreach, htouch⟩ | ⟨hnone, hquiet⟩
      · have hgen (j : Fin 4) : (t.sockets j).gen = (k.chip.sockets j).gen := by
          by_cases hj : j = i
          · rw [hj, htouch.gen]
          · exact (htouch.others j hj).2
        refine hdone htouch.idle hgen (h.delivered.event h.ordered hevents htouch.idle hgen (fun j => ?_))
        by_cases hj : j = i
        · subst hj
          refine .inl ⟨by simp [statusOf, hreach.1, hreach.2.1, hreach.2.2], ?_⟩
          rw [htouch.status]
          rcases statusAfter_cases (h.ordered.cause ev hev hreach.1) with hst | hst | hst <;> rw [hst] <;> decide
        · refine .inr ⟨hother j (fun hreach' => hj (Fin.ext (hreach'.2.1.symm.trans hreach.2.1))), ?_⟩
          exact (htouch.others j hj).1
      · refine hdone hquiet.idle (fun j => (hquiet.sockets j).2)
          (h.delivered.event h.ordered hevents hquiet.idle (fun j => (hquiet.sockets j).2) (fun j => ?_))
        exact .inr ⟨hother j (hnone j), (hquiet.sockets j).1⟩
    exact hboth.bind (fun u hu => yields_some.2 hu)

theorem Delivered.asks (h : Delivered applied s) (hordered : Ordered handled s) (hasks : Asks s t) :
    Delivered applied t := by
  have hboth : Ordered handled t ∧ Delivered applied t := by
    induction hasks with
    | refl => exact ⟨hordered, h⟩
    | tail _ hstep ih =>
      obtain ⟨i, l, hasked⟩ := hstep
      exact ⟨ih.1.asked hasked, ih.2.asked ih.1 hasked⟩
  exact hboth.2

theorem Told.guest (h : Told k) {a : Act} (hguest : isGuest a = true)
    (hholds : ∀ value bound, a = .write 0x001A value bound → Holds value k.chip) : Yields (k.step a) Told := by
  refine (step_asks h.safe hguest hholds).mono (fun k' hk => ?_)
  obtain ⟨hsafe, hasks, hhandled, happlied⟩ := hk
  refine ⟨hsafe, ?_, ?_⟩
  · rw [hhandled]
    exact h.ordered.asks hasks
  · rw [happlied]
    exact h.delivered.asks h.ordered hasks

theorem Told.work (h : Told k) {st : NetWorker.Step} (hroomy : Roomy k (.work st)) : Yields (k.step (.work st)) Told := by
  obtain ⟨st', ev, hturn⟩ := step_turn k.chip.worker st
  refine yields_some.2 ⟨h.safe.withWorker _, h.ordered.turn hturn, h.delivered.turn hturn (fun j e hev hnews => ?_)⟩
  simp only [newsOf, Bool.and_eq_true, beq_iff_eq] at hnews
  rcases step_posts k.chip.worker st with hnone | ⟨e', hposted, hreports⟩
  · rw [hturn.posted, hev] at hnone
    exact absurd (List.append_right_eq_self.1 hnone) (List.cons_ne_nil _ _)
  · rw [hturn.posted, hev] at hposted
    have heq : e = e' := List.singleton_inj.1 (List.append_cancel_left hposted)
    rw [← heq] at hreports
    rcases hreports hnews.1.1 with hroom | ⟨i, hsock, hreports⟩
    · exact hroom
    · simp only [Roomy, hreports] at hroomy
      refine hroomy ?_
      rw [hnews.2, show i = j from Fin.ext (hsock.symm.trans hnews.1.2)]

theorem Told.step (h : Told k) {a : Act} (hroomy : Roomy k a) : Yields (k.step a) Told := by
  cases a with
  | write address value bound => exact h.guest rfl (fun v b heq => by cases heq; exact hroomy rfl)
  | advance i n => exact h.guest rfl nofun
  | flush => exact h.guest rfl nofun
  | apply => exact h.apply.mono (fun _ hk => hk.told)
  | reset powerCycle => exact h.guest rfl nofun
  | work st => exact h.work hroomy

theorem delivered_blank : Delivered [] ({} : Chip) where
  known _ he := absurd he List.not_mem_nil
  news _ := rfl
  early _ _ _ he := absurd he List.not_mem_nil

theorem told_start : Told start where
  safe := safe_start
  ordered := ordered_start
  delivered := delivered_blank.asks ordered_blank (asks_reset {} true)

theorem Told.applies (n : Nat) {k : Net} (h : Told k) (hn : k.chip.worker.events.length = n) :
    Yields ((List.replicate n Act.apply).foldlM Net.step k) (fun k' =>
      Told k' ∧ k'.chip.worker.events = [] ∧ k'.chip.worker.posted = k.chip.worker.posted ∧
        ∀ j, (k'.chip.sockets j).gen = (k.chip.sockets j).gen) := by
  induction n generalizing k with
  | zero => exact yields_some.2 ⟨h, List.length_eq_zero_iff.1 hn, rfl, fun _ => rfl⟩
  | succ n ih =>
    rw [List.replicate_succ, List.foldlM_cons]
    refine h.apply.bind (fun m hm => ?_)
    have hlength : m.chip.worker.events.length = n := by rw [hm.events, List.length_tail, hn, Nat.add_sub_cancel]
    refine (ih hm.told hlength).mono (fun k' hk => ⟨hk.1, hk.2.1, hk.2.2.1.trans hm.posted, fun j => ?_⟩)
    rw [hk.2.2.2 j, hm.gen j]

theorem Told.frame (h : Told k) : Yields (k.frame.foldlM Net.step k) (fun k' =>
    Told k' ∧ k'.chip.worker.events = [] ∧ k'.chip.worker.posted = k.chip.worker.posted ∧
      ∀ j, (k'.chip.sockets j).gen = (k.chip.sockets j).gen) := by
  obtain ⟨t, ht, hsafe, hquiet⟩ := quiet_flushAll h.safe
  have hflush : k.step .flush = some { k with chip := t } := by
    rw [Net.step, ht]
    rfl
  have htold : Told { k with chip := t } :=
    ⟨hsafe, h.ordered.asks hquiet.asks, h.delivered.asks h.ordered hquiet.asks⟩
  have hlength : t.worker.events.length = k.chip.worker.events.length := by rw [hquiet.idle.events]
  rw [Net.frame, List.foldlM_cons, hflush]
  refine (htold.applies _ hlength).mono (fun k' hk => ⟨hk.1, hk.2.1, ?_, fun j => ?_⟩)
  · rw [hk.2.2.1]
    exact hquiet.idle.posted
  · rw [hk.2.2.2 j]
    exact (hquiet.sockets j).2

/-- With room for its reports, what the worker has posted of a generation that is going on has been applied or is on
its way, once and in order; and once the host has answered, a frame leaves no socket connecting. -/
theorem news_delivered (acts : List Act) (h : Guarded step Roomy start acts) :
    ∃ k, acts.foldlM step start = some k ∧ ∀ i,
      k.chip.worker.posted.filter (newsOf i (k.chip.sockets i).gen) =
          k.applied.filter (newsOf i (k.chip.sockets i).gen) ++
            k.chip.worker.events.filter (newsOf i (k.chip.sockets i).gen) ∧
        ((∃ e ∈ k.chip.worker.posted, statusOf i (k.chip.sockets i).gen e = true) →
          ∃ k', k.frame.foldlM step k = some k' ∧ (k'.chip.sockets i).status ≠ Sr.synSent) := by
  obtain ⟨k, hk, htold⟩ := h.yields (fun _ _ hroomy htold => Told.step htold hroomy) told_start
  refine ⟨k, hk, fun i => ⟨htold.delivered.news i, ?_⟩⟩
  rintro ⟨e, he, hstatus⟩
  obtain ⟨k', hk', htold', hnil, hposted, hgen⟩ := htold.frame
  refine ⟨k', hk', fun hsyn => ?_⟩
  have hnews := htold'.delivered.news i
  rw [hnil, List.filter_nil, List.append_nil, hposted, hgen] at hnews
  have hmem : e ∈ k.chip.worker.posted.filter (newsOf i (k.chip.sockets i).gen) := by
    simp only [statusOf, Bool.and_eq_true] at hstatus
    refine List.mem_filter.2 ⟨he, ?_⟩
    simp [newsOf, isNews, hstatus]
  rw [hnews] at hmem
  have hearly := htold'.delivered.early i (.inr hsyn) e (List.mem_filter.1 hmem).1
  rw [hgen, hstatus] at hearly
  cases hearly

end

def connecting (answer : HostResult) : List Act :=
  [.write 0x400 Mr.tcp false, .write 0x401 Cr.open' false, .write 0x401 Cr.connect false] ++
    List.replicate 6 (.work (.handleRequest .ok .ok [])) ++ [.work (.handleRequest answer .ok [])]

theorem news_delivered_connected :
    ∃ k, (connecting .ok).foldlM step start = some k ∧ ∀ i,
      k.chip.worker.posted.filter (newsOf i (k.chip.sockets i).gen) =
          k.applied.filter (newsOf i (k.chip.sockets i).gen) ++
            k.chip.worker.events.filter (newsOf i (k.chip.sockets i).gen) ∧
        ((∃ e ∈ k.chip.worker.posted, statusOf i (k.chip.sockets i).gen e = true) →
          ∃ k', k.frame.foldlM step k = some k' ∧ (k'.chip.sockets i).status ≠ Sr.synSent) :=
  news_delivered _ (by decide +kernel)

def drowned : List Act :=
  connecting .wouldBlock ++ List.replicate 63 (.work (.slirpRx [])) ++ [.work (.pollConnect 0 .ok)]

theorem connected_lost :
    ¬ ∀ acts : List Act, ∃ k, acts.foldlM step start = some k ∧ ∀ i,
      k.chip.worker.posted.filter (newsOf i (k.chip.sockets i).gen) =
          k.applied.filter (newsOf i (k.chip.sockets i).gen) ++
            k.chip.worker.events.filter (newsOf i (k.chip.sockets i).gen) ∧
        ((∃ e ∈ k.chip.worker.posted, statusOf i (k.chip.sockets i).gen e = true) →
          ∃ k', k.frame.foldlM step k = some k' ∧ (k'.chip.sockets i).status ≠ Sr.synSent) := by
  intro h
  obtain ⟨k, hk, hi⟩ := h drowned
  have hend : (drowned.foldlM step start).map (fun k =>
      (k.chip.worker.posted.any (statusOf 0 (k.chip.sockets 0).gen),
        (k.frame.foldlM step k).map (fun k' => (k'.chip.sockets 0).status))) = some (true, some Sr.synSent) := by
    decide +kernel
  simp only [hk, Option.map_some, Option.some.injEq, Prod.mk.injEq, List.any_eq_true] at hend
  obtain ⟨k', hk', hne⟩ := (hi 0).2 hend.1
  rw [hk'] at hend
  exact hne (Option.some.inj hend.2)

end Net

end GSSquared.Uthernet
