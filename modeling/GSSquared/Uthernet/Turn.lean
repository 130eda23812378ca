/-
What the worker can do in one step.
-/
import GSSquared.Uthernet.Worker
import Mathlib.Logic.Basic

set_option linter.all false

namespace GSSquared.Uthernet

open Bits

namespace NetWorker

def statusEvent (i : Fin 4) (gen : Nat) (status : Byte) (cause : NetCause) (err : Int) (ip : Ip) (port : Nat) :
    NetEvent :=
  { evt := .status, sock := i, status := status, gen := gen, cause := cause, hostErr := err, srcIp := ip,
    srcPort := port }

def doneEvent (i : Fin 4) (gen : Nat) (cause : NetCause) (err : Int) : NetEvent :=
  { evt := .sendDone, sock := i, gen := gen, cause := cause, hostErr := err }

def pushed (ev : Option NetEvent) (q : List NetEvent) : List NetEvent :=
  match ev with
  | none => q
  | some e => (Channel.send ringCapacity q e).getD q

def spent (i : Fin 4) (ev : Option NetEvent) (credit : Fin 4 → Nat) : Fin 4 → Nat :=
  match ev with
  | some e => if e.evt = .rxTcp then fun j => if j = i then credit i - e.payload.length else credit j else credit
  | none => credit

def added : Option NetRequest → List Byte
  | some r => r.payload
  | none => []

inductive Did (i : Fin 4) : Option NetRequest → SockState → SockState → Option NetEvent → Prop
  | idle (st : SockState) : Did i none st st none
  | passed (r : NetRequest) (st : SockState) (hmsg : definesGen r.msg = false)
      (hdata : r.msg = .sendTcp → r.gen = st.gen → st.fd = none ∨ st.isTcp = false ∨ r.payload = []) :
      Did i (some r) st st none
  | closed (r : NetRequest) (st : SockState) (hmsg : r.msg = .close ∨ r.msg = .closeHost) :
      Did i (some r) st { gen := r.gen } none
  | openedTcp (r : NetRequest) (st : SockState) (hmsg : r.msg = .openTcp) :
      Did i (some r) st { gen := r.gen, fd := some [], isTcp := true, status := Sr.init } none
  | openedUdp (r : NetRequest) (st : SockState) (hmsg : r.msg = .openUdp) :
      Did i (some r) st { gen := r.gen, fd := some [], isUdp := true, status := Sr.udp } none
  | openFailed (r : NetRequest) (st : SockState) (err : Int) (hmsg : r.msg = .openTcp ∨ r.msg = .openUdp) :
      Did i (some r) st { gen := r.gen } (some (statusEvent i r.gen Sr.closed .failed err {} 0))
  | adopted (r : NetRequest) (st : SockState) (hmsg : r.msg = .adoptListen) :
      Did i (some r) st { gen := r.gen, fd := some [], isTcp := true, listening := true, status := Sr.listen } none
  | connected (r : NetRequest) (st : SockState) (hmsg : r.msg = .connect) (hgen : r.gen = st.gen)
      (hfd : st.fd ≠ none) (htcp : st.isTcp = true) (ip : Ip) (port : Nat) :
      Did i (some r) st { st with status := Sr.established }
        (some (statusEvent i st.gen Sr.established .connected 0 ip port))
  | connecting (r : NetRequest) (st : SockState) (hmsg : r.msg = .connect) (hgen : r.gen = st.gen)
      (hfd : st.fd ≠ none) (htcp : st.isTcp = true) :
      Did i (some r) st { st with status := Sr.synSent } none
  | connectFailed (r : NetRequest) (st : SockState) (hmsg : r.msg = .connect) (hgen : r.gen = st.gen)
      (hfd : st.fd ≠ none) (htcp : st.isTcp = true) (err : Int) :
      Did i (some r) st { gen := st.gen } (some (statusEvent i st.gen Sr.closed .failed err {} 0))
  | cameUp (st : SockState) (hfd : st.fd ≠ none) (hstatus : st.status = Sr.synSent) :
      Did i none st { st with status := Sr.established }
        (some (statusEvent i st.gen Sr.established .connected 0 {} 0))
  | refused (st : SockState) (hfd : st.fd ≠ none) (hstatus : st.status = Sr.synSent) (err : Int) :
      Did i none st { gen := st.gen } (some (statusEvent i st.gen Sr.closed .failed err {} 0))
  | accepted (st : SockState) (hfd : st.fd ≠ none) (hlisten : st.listening = true) (hstatus : st.status = Sr.listen)
      (ip : Ip) (port : Nat) :
      Did i none st { st with fd := some [], listening := false, status := Sr.established }
        (some (statusEvent i st.gen Sr.established .connected 0 ip port))
  | wrote (req : Option NetRequest) (st : SockState) (handed taken pending : List Byte) (hfd : st.fd = some handed)
      (htcp : st.isTcp = true) (hreq : ∀ r, req = some r → r.msg = .sendTcp ∧ r.gen = st.gen)
      (hpoll : req = none → st.status ≠ Sr.synSent ∧ st.txPending ≠ [])
      (hbytes : taken ++ pending = st.txPending ++ added req) :
      Did i req st { st with fd := some (handed ++ taken), txPending := pending }
        (if pending = [] then some (doneEvent i st.gen .none 0) else none)
  | broke (req : Option NetRequest) (st : SockState) (hfd : st.fd ≠ none) (htcp : st.isTcp = true)
      (hreq : ∀ r, req = some r → r.msg = .sendTcp ∧ r.gen = st.gen)
      (hpoll : req = none → st.status ≠ Sr.synSent ∧ st.txPending ≠ []) (err : Int) :
      Did i req st { gen := st.gen } (some (statusEvent i st.gen Sr.closed .reset err {} 0))
  | sentUdp (r : NetRequest) (st : SockState) (hmsg : r.msg = .sendUdp) (hgen : r.gen = st.gen) (cause : NetCause)
      (err : Int) : Did i (some r) st st (some (doneEvent i st.gen cause err))
  | sentRaw (r : NetRequest) (st : SockState) (hmsg : isRaw r.msg = true) (cause : NetCause) :
      Did i (some r) st st (some (doneEvent i r.gen cause 0))
  | received (st : SockState) (hfd : st.fd ≠ none) (hstatus : st.status = Sr.established) (htcp : st.isTcp = true)
      (bytes : List Byte) :
      Did i none st st (some { evt := .rxTcp, sock := i, gen := st.gen, payload := bytes })
  | ended (st : SockState) (hfd : st.fd ≠ none) (hstatus : st.status = Sr.established) (htcp : st.isTcp = true) :
      Did i none st { st with eof := true, status := Sr.closeWait }
        (some (statusEvent i st.gen Sr.closeWait .remoteClosed 0 {} 0))
  | dropped (st : SockState) (hfd : st.fd ≠ none) (hstatus : st.status = Sr.established) (htcp : st.isTcp = true)
      (err : Int) : Did i none st { gen := st.gen } (some (statusEvent i st.gen Sr.closed .reset err {} 0))
  | datagram (st : SockState) (hfd : st.fd ≠ none) (hudp : st.isUdp = true) (ip : Ip) (port : Nat)
      (bytes : List Byte) :
      Did i none st st
        (some { evt := .rxUdp, sock := i, gen := st.gen, srcIp := ip, srcPort := port, payload := bytes })
  | frame (st : SockState) (bytes : List Byte) :
      Did i none st st (some { evt := .macRawRx, sock := i, gen := st.gen, payload := bytes })

structure Turn (i : Fin 4) (req : Option NetRequest) (st' : SockState) (ev : Option NetEvent) (w t : NetWorker) : Prop
    where
  did : Did i req (w.socks i) st' ev
  requests : w.requests = req.toList ++ t.requests
  sock : ∀ r, req = some r → r.sock = i
  socks : ∀ j, t.socks j = if j = i then st' else w.socks j
  posted : t.posted = w.posted ++ ev.toList
  events : t.events = pushed ev w.events
  credit : t.rxCredit = spent i ev w.rxCredit
  paid : ∀ e, ev = some e → e.evt = .rxTcp → e.payload.length ≤ w.rxCredit i ∧ w.events.length < ringCapacity

def Dry (i : Fin 4) (req : Option NetRequest) (w t : NetWorker) : Prop :=
  ∃ st' ev, Turn i req st' ev w t ∧ ∀ e, ev = some e → e.evt ≠ .rxTcp

section

variable {w t : NetWorker} {i : Fin 4} {req : Option NetRequest} {st' : SockState} {ev : Option NetEvent}
  {rest : List NetRequest}

theorem no_event {p : NetEvent → Prop} : ∀ e, none = some e → p e := fun _ h => nomatch h

def report (ev : Option NetEvent) (w : NetWorker) : NetWorker :=
  match ev with
  | none => w
  | some e => w.postEvent e

theorem turn_report (hdid : Did i req (w.socks i) st' ev) (hrequests : w.requests = req.toList ++ rest)
    (hsock : ∀ r, req = some r → r.sock = i) (hev : ∀ e, ev = some e → e.evt ≠ .rxTcp) :
    Turn i req st' ev w (report ev (({ w with requests := rest } : NetWorker).setSock i st')) := by
  cases ev with
  | none => exact ⟨hdid, hrequests, hsock, fun _ => rfl, (List.append_nil _).symm, rfl, rfl, no_event⟩
  | some e =>
    have hcredit : spent i (some e) w.rxCredit = w.rxCredit := if_neg (hev e rfl)
    exact ⟨hdid, hrequests, hsock, fun _ => rfl, rfl, rfl, hcredit.symm, fun _ he hrx => absurd hrx (hev _ he)⟩

theorem setSock_self (w : NetWorker) (i : Fin 4) : w.setSock i (w.socks i) = w := by
  have hsocks : (fun j => if j = i then w.socks i else w.socks j) = w.socks := by
    funext j
    split
    · next hj => rw [hj]
    · rfl
  rw [setSock, hsocks]

theorem setSock_setSock (w : NetWorker) (i : Fin 4) (st st' : SockState) :
    (w.setSock i st).setSock i st' = w.setSock i st' := by
  have hsocks : (fun j => if j = i then st' else if j = i then st else w.socks j) =
      fun j => if j = i then st' else w.socks j := by
    funext j
    split <;> rfl
  simp only [setSock, hsocks]

@[simp] theorem setSock_socks (w : NetWorker) (i : Fin 4) (st : SockState) : (w.setSock i st).socks i = st := if_pos rfl

theorem closeState_setSock (w : NetWorker) (i : Fin 4) (st : SockState) :
    (w.setSock i st).closeState i = w.setSock i { gen := st.gen } := by
  rw [closeState, setSock_socks, setSock_setSock]

theorem postStatus_setSock (w : NetWorker) (i : Fin 4) (st : SockState) (status : Byte) (cause : NetCause) (err : Int)
    (ip : Ip) (port : Nat) :
    (w.setSock i st).postStatus i status cause err ip port =
      report (some (statusEvent i st.gen status cause err ip port)) (w.setSock i st) := by
  rw [postStatus, setSock_socks]
  rfl

theorem closeWith_setSock (w : NetWorker) (i : Fin 4) (st : SockState) (cause : NetCause) (err : Int) :
    (w.setSock i st).closeWith i cause err =
      report (some (statusEvent i st.gen Sr.closed cause err {} 0)) (w.setSock i { gen := st.gen }) := by
  rw [closeWith, closeState_setSock, postStatus_setSock]

theorem closeWith_eq (w : NetWorker) (i : Fin 4) (cause : NetCause) (err : Int) :
    w.closeWith i cause err =
      report (some (statusEvent i (w.socks i).gen Sr.closed cause err {} 0))
        (w.setSock i { gen := (w.socks i).gen }) := by
  rw [closeWith, closeState, postStatus_setSock]

theorem sendLoop_append (results : List SendResult) (pending taken : List Byte) :
    (sendLoop results pending taken).2.1 ++ (sendLoop results pending taken).1 = taken ++ pending := by
  induction results generalizing pending taken with
  | nil => cases pending <;> rfl
  | cons r results ih =>
    cases pending with
    | nil => rfl
    | cons b pending =>
      cases r with
      | wouldBlock => rfl
      | error err => rfl
      | took n =>
        rw [sendLoop.eq_5 _ _ _ _ (List.cons_ne_nil b pending)]
        split
        · rw [ih, List.append_assoc, List.take_append_drop]
        · rfl

theorem flush_did (w : NetWorker) (i : Fin 4) {st : SockState} {handed : List Byte} (results : List SendResult)
    (hfd : st.fd = some handed) (htcp : st.isTcp = true)
    (hreq : ∀ r, req = some r → r.msg = .sendTcp ∧ r.gen = st.gen)
    (hpoll : req = none → st.status ≠ Sr.synSent ∧ st.txPending ≠ []) (hne : st.txPending ++ added req ≠ []) :
    ∃ st' ev, Did i req st st' ev ∧ (∀ e, ev = some e → e.evt ≠ .rxTcp) ∧
      (w.setSock i { st with txPending := st.txPending ++ added req }).flushTcpTx i results =
        report ev (w.setSock i st') := by
  have hsplit := sendLoop_append results (st.txPending ++ added req) []
  unfold flushTcpTx
  simp only [setSock_socks, hfd, if_neg hne]
  generalize hloop : sendLoop results (st.txPending ++ added req) [] = loop at hsplit ⊢
  obtain ⟨pending, taken, failed⟩ := loop
  simp only [List.nil_append] at hsplit ⊢
  rw [setSock_setSock]
  cases failed with
  | some err =>
    refine ⟨_, _, .broke req st (by rw [hfd]; nofun) htcp hreq hpoll err, ?_, closeWith_setSock w i _ .reset err⟩
    rintro e he
    cases he
    nofun
  | none =>
    refine ⟨_, _, .wrote req st handed taken pending hfd htcp hreq hpoll hsplit, ?_, ?_⟩
    · intro e he
      split at he
      · cases he
        nofun
      · cases he
    · simp only
      split <;> rfl

theorem turn_flush (hsock : ∀ r, req = some r → r.sock = i) (hrequests : w.requests = req.toList ++ rest)
    {handed : List Byte} (results : List SendResult) (hfd : (w.socks i).fd = some handed)
    (htcp : (w.socks i).isTcp = true) (hreq : ∀ r, req = some r → r.msg = .sendTcp ∧ r.gen = (w.socks i).gen)
    (hpoll : req = none → (w.socks i).status ≠ Sr.synSent ∧ (w.socks i).txPending ≠ [])
    (hne : (w.socks i).txPending ++ added req ≠ []) :
    Dry i req w
      ((({ w with requests := rest } : NetWorker).setSock i
        { w.socks i with txPending := (w.socks i).txPending ++ added req }).flushTcpTx i results) := by
  obtain ⟨st', ev, hdid, hev, heq⟩ :=
    flush_did { w with requests := rest } i results hfd htcp hreq hpoll hne
  exact ⟨st', ev, heq ▸ turn_report hdid hrequests hsock hev, hev⟩

theorem turn_handleRequest {r : NetRequest} (hrequests : w.requests = r :: rest) (answer bound : HostResult)
    (results : List SendResult) :
    Dry r.sock (some r) w (({ w with requests := rest } : NetWorker).handleRequest r answer bound results) := by
  have hsock : ∀ q, some r = some q → q.sock = r.sock := fun q hq => by rw [Option.some.inj hq]
  -- each outcome is a change of the socket and an event that reports it
  have hend {st' : SockState} {ev : Option NetEvent} (hdid : Did r.sock (some r) (w.socks r.sock) st' ev)
      (hev : ∀ e, ev = some e → e.evt ≠ .rxTcp) {t : NetWorker}
      (ht : t = report ev (({ w with requests := rest } : NetWorker).setSock r.sock st')) :
      Dry r.sock (some r) w t :=
    ⟨st', ev, ht ▸ turn_report hdid hrequests hsock hev, hev⟩
  have hpass (hmsg : definesGen r.msg = false) (hdata : r.msg = .sendTcp → r.gen = (w.socks r.sock).gen →
      (w.socks r.sock).fd = none ∨ (w.socks r.sock).isTcp = false ∨ r.payload = []) :
      Dry r.sock (some r) w { w with requests := rest } :=
    hend (.passed r _ hmsg hdata) no_event (setSock_self { w with requests := rest } r.sock).symm
  unfold handleRequest
  cases hmsg : r.msg with
  | openTcp =>
    simp only [definesGen, if_true, Bool.not_true, Bool.false_and, if_false, setSock_socks, Bool.false_eq_true]
    cases answer with
    | ok => exact hend (.openedTcp r _ hmsg) no_event (setSock_setSock _ _ _ _)
    | wouldBlock => exact hend (.openFailed r _ 0 (.inl hmsg)) (by rintro e ⟨⟩; nofun) (closeWith_setSock _ _ _ _ _)
    | error err => exact hend (.openFailed r _ err (.inl hmsg)) (by rintro e ⟨⟩; nofun) (closeWith_setSock _ _ _ _ _)
  | openUdp =>
    simp only [definesGen, if_true, Bool.not_true, Bool.false_and, if_false, setSock_socks, Bool.false_eq_true]
    split
    · exact hend (.openedUdp r _ hmsg) no_event (setSock_setSock _ _ _ _)
    all_goals exact hend (.openFailed r _ _ (.inr hmsg)) (by rintro e ⟨⟩; nofun) (closeWith_setSock _ _ _ _ _)
  | adoptListen =>
    simp only [definesGen, if_true, Bool.not_true, Bool.false_and, if_false, setSock_socks, Bool.false_eq_true]
    exact hend (.adopted r _ hmsg) no_event (setSock_setSock _ _ _ _)
  | close =>
    simp only [definesGen, if_true, Bool.not_true, Bool.false_and, if_false, Bool.false_eq_true]
    exact hend (.closed r _ (.inl hmsg)) no_event (closeState_setSock _ _ _)
  | closeHost =>
    simp only [definesGen, if_true, Bool.not_true, Bool.false_and, if_false, Bool.false_eq_true]
    exact hend (.closed r _ (.inr hmsg)) no_event (closeState_setSock _ _ _)
  | connect =>
    simp only [definesGen, isRaw, Bool.false_eq_true, if_false, Bool.not_false, Bool.true_and, Bool.and_true, bne_iff_ne]
    by_cases hgen : r.gen = (w.socks r.sock).gen
    · rw [if_neg (not_not.2 hgen)]
      split
      · exact hpass (by rw [hmsg]; rfl) (by rw [hmsg]; nofun)
      · next hlive =>
        rw [not_or, Bool.not_eq_false] at hlive
        cases answer with
        | ok =>
          exact hend (.connected r _ hmsg hgen hlive.1 hlive.2 _ _) (by rintro e ⟨⟩; nofun)
            (postStatus_setSock _ _ _ _ _ _ _ _)
        | wouldBlock => exact hend (.connecting r _ hmsg hgen hlive.1 hlive.2) no_event rfl
        | error err =>
          exact hend (.connectFailed r _ hmsg hgen hlive.1 hlive.2 err) (by rintro e ⟨⟩; nofun) (closeWith_eq _ _ _ _)
    · rw [if_pos hgen]
      exact hpass (by rw [hmsg]; rfl) (by rw [hmsg]; nofun)
  | sendTcp =>
    simp only [definesGen, isRaw, Bool.false_eq_true, if_false, Bool.not_false, Bool.true_and, Bool.and_true, bne_iff_ne]
    by_cases hgen : r.gen = (w.socks r.sock).gen
    · rw [if_neg (not_not.2 hgen)]
      split
      · next hdead => exact hpass (by rw [hmsg]; rfl) (fun _ _ => hdead)
      · next hlive =>
        rw [not_or, not_or, Bool.not_eq_false] at hlive
        obtain ⟨handed, hfd⟩ := Option.ne_none_iff_exists'.1 hlive.1
        exact turn_flush hsock hrequests results hfd hlive.2.1
          (fun q hq => by rw [← Option.some.inj hq]; exact ⟨hmsg, hgen⟩) nofun
          (fun hnil => hlive.2.2 (List.append_eq_nil_iff.1 hnil).2)
    · rw [if_pos hgen]
      exact hpass (by rw [hmsg]; rfl) (fun _ heq => absurd heq hgen)
  | sendUdp =>
    simp only [definesGen, isRaw, Bool.false_eq_true, if_false, Bool.not_false, Bool.true_and, Bool.and_true, bne_iff_ne]
    by_cases hgen : r.gen = (w.socks r.sock).gen
    · rw [if_neg (not_not.2 hgen)]
      split
      · exact hpass (by rw [hmsg]; rfl) (by rw [hmsg]; nofun)
      · have hsent {cause : NetCause} {err : Int} :
            Dry r.sock (some r) w
              (({ w with requests := rest } : NetWorker).postEvent
                (doneEvent r.sock (w.socks r.sock).gen cause err)) :=
          hend (.sentUdp r _ hmsg hgen cause err) (by rintro e ⟨⟩; nofun)
            (by rw [setSock_self { w with requests := rest } r.sock]; rfl)
        cases answer with
        | ok => exact hsent
        | wouldBlock => exact hsent
        | error err => exact hsent
    · rw [if_pos hgen]
      exact hpass (by rw [hmsg]; rfl) (by rw [hmsg]; nofun)
  | macRawTx | ipRawTx =>
    simp only [definesGen, isRaw, Bool.false_eq_true, if_false, Bool.not_false, Bool.not_true, Bool.true_and, Bool.and_false]
    exact hend (.sentRaw r _ (by rw [hmsg]; rfl) _) (by rintro e ⟨⟩; nofun)
      (by rw [setSock_self { w with requests := rest } r.sock]; rfl)

theorem turn_idle (w : NetWorker) (i : Fin 4) : Dry i none w w := by
  have hsocks : ∀ j, w.socks j = if j = i then w.socks i else w.socks j := by
    intro j
    split
    · next hj => rw [hj]
    · rfl
  exact ⟨w.socks i, none, ⟨.idle _, rfl, nofun, hsocks, (List.append_nil _).symm, rfl, rfl, no_event⟩, no_event⟩

theorem turn_poll (hdid : Did i none (w.socks i) st' ev) (hev : ∀ e, ev = some e → e.evt ≠ .rxTcp)
    (ht : t = report ev (w.setSock i st')) : Dry i none w t :=
  ⟨st', ev, ht ▸ turn_report hdid rfl nofun hev, hev⟩

variable (w : NetWorker)

theorem turn_pollConnect (i : Fin 4) (answer : HostResult) :
    Dry i none w (w.pollConnect i answer) := by
  unfold pollConnect
  simp only
  split
  · exact turn_idle w i
  · next hlive =>
    rw [not_or, not_not] at hlive
    cases answer with
    | ok => exact turn_poll (.cameUp _ hlive.1 hlive.2) (by rintro e ⟨⟩; nofun) (postStatus_setSock _ _ _ _ _ _ _ _)
    | wouldBlock => exact turn_idle w i
    | error err => exact turn_poll (.refused _ hlive.1 hlive.2 err) (by rintro e ⟨⟩; nofun) (closeWith_eq _ _ _ _)

theorem turn_pollAccept (i : Fin 4) (peer : Option (Ip × Nat)) :
    Dry i none w (w.pollAccept i peer) := by
  unfold pollAccept
  simp only
  split
  · exact turn_idle w i
  · next hlive =>
    rw [not_or, not_or, not_not, Bool.not_eq_false] at hlive
    cases peer with
    | none => exact turn_idle w i
    | some peer =>
      exact turn_poll (.accepted _ hlive.1 hlive.2.1 hlive.2.2 _ _) (by rintro e ⟨⟩; nofun)
        (postStatus_setSock _ _ _ _ _ _ _ _)

theorem turn_pollSend (i : Fin 4) (results : List SendResult) :
    Dry i none w (w.pollSend i results) := by
  unfold pollSend
  simp only
  split
  · exact turn_idle w i
  · next hlive =>
    rw [not_or, not_or, not_or, Bool.not_eq_false] at hlive
    obtain ⟨handed, hfd⟩ := Option.ne_none_iff_exists'.1 hlive.1
    have hnone (q : NetRequest → Prop) : ∀ r, (none : Option NetRequest) = some r → q r := nofun
    have hturn : Dry i none w
        ((({ w with requests := w.requests } : NetWorker).setSock i
          { w.socks i with txPending := (w.socks i).txPending ++ added none }).flushTcpTx i results) :=
      turn_flush (hnone _) rfl results hfd hlive.2.2.1 (hnone _) (fun _ => ⟨hlive.2.1, hlive.2.2.2⟩)
        (by simpa [added] using hlive.2.2.2)
    have hsame : ({ w with requests := w.requests } : NetWorker).setSock i
        { w.socks i with txPending := (w.socks i).txPending } = w := setSock_self w i
    rw [added, List.append_nil, hsame] at hturn
    exact hturn

def receives (sock : Fin 4) (answer : RecvResult) (w : NetWorker) : Bool :=
  let st := w.socks sock
  st.fd != none && st.status == Sr.established && st.isTcp && !st.eof && Channel.canSend ringCapacity w.events &&
    w.rxCredit sock != 0 && match answer with | .data bytes => bytes != [] | _ => false

theorem turn_pollRecv (i : Fin 4) (answer : RecvResult) :
    ∃ st' ev, Turn i none st' ev w (w.pollRecv i answer) ∧
      ∀ e, ev = some e → e.evt = .rxTcp → w.receives i answer = true := by
  have hdry {t : NetWorker} (h : Dry i none w t) :
      ∃ st' ev, Turn i none st' ev w t ∧ ∀ e, ev = some e → e.evt = .rxTcp → w.receives i answer = true := by
    obtain ⟨st', ev, hturn, hev⟩ := h
    exact ⟨st', ev, hturn, fun e he hrx => absurd hrx (hev e he)⟩
  unfold pollRecv
  simp only
  split
  · exact hdry (turn_idle w i)
  · next hlive =>
    rw [not_or, not_or, not_or, not_not, Bool.not_eq_false] at hlive
    split
    · exact hdry (turn_idle w i)
    split
    · exact hdry (turn_idle w i)
    cases answer with
    | wouldBlock => exact hdry (turn_idle w i)
    | error err =>
      exact hdry (turn_poll (.dropped _ hlive.1 hlive.2.1 hlive.2.2.1 err) (by rintro e ⟨⟩; nofun) (closeWith_eq _ _ _ _))
    | data bytes =>
      simp only
      split
      · refine hdry (turn_poll (.ended _ hlive.1 hlive.2.1 hlive.2.2.1) (by rintro e ⟨⟩; nofun)
          (postStatus_setSock _ _ _ _ _ _ _ _))
      · next hroom hcredit hbytes =>
        refine ⟨_, _, ⟨.received _ hlive.1 hlive.2.1 hlive.2.2.1 _, rfl, nofun, fun j => ?_, rfl, rfl, ?_, ?_⟩, ?_⟩
        · split
          · next hj => rw [hj]; rfl
          · rfl
        · rfl
        · rintro e ⟨⟩ _
          refine ⟨?_, ?_⟩
          · simp only [List.length_take]
            omega
          · simpa [Channel.canSend] using hroom
        · rintro e ⟨⟩ _
          have hne : bytes ≠ [] := fun hnil => hbytes (by rw [hnil, List.take_nil])
          unfold receives
          simp [hlive, hroom, hcredit, hne]

theorem turn_pollUdp (i : Fin 4) (answer : RecvResult) (ip : Ip) (port : Nat) :
    Dry i none w (w.pollUdp i answer ip port) := by
  unfold pollUdp
  simp only
  split
  · exact turn_idle w i
  · next hlive =>
    rw [not_or, not_or, not_not, Bool.not_eq_false] at hlive
    split
    · exact turn_idle w i
    cases answer with
    | wouldBlock => exact turn_idle w i
    | error err => exact turn_idle w i
    | data bytes =>
      simp only
      split
      · exact turn_idle w i
      · exact turn_poll (.datagram _ hlive.1 hlive.2.2 ip port _) (by rintro e ⟨⟩; nofun)
          (by rw [setSock_self]; rfl)

theorem turn_slirpRx (bytes : List Byte) : Dry 0 none w (w.slirpRx bytes) := by
  unfold slirpRx
  split
  · exact turn_idle w 0
  · exact turn_poll (.frame _ bytes) (by rintro e ⟨⟩; nofun) (by rw [setSock_self]; rfl)

def stepSock (w : NetWorker) : Step → Fin 4
  | .handleRequest _ _ _ => (w.requests.head?.map (·.sock)).getD 0
  | .pollConnect sock _ | .pollAccept sock _ | .pollSend sock _ | .pollRecv sock _ | .pollUdp sock _ _ _ => sock
  | .slirpRx _ => 0

def stepRequest (w : NetWorker) : Step → Option NetRequest
  | .handleRequest _ _ _ => w.requests.head?
  | _ => none

theorem step_dry (st : Step) (hst : ∀ sock answer, st ≠ .pollRecv sock answer) :
    Dry (w.stepSock st) (w.stepRequest st) w (w.step st) := by
  cases st with
  | handleRequest answer bound results =>
    unfold stepSock stepRequest step
    cases hrequests : w.requests with
    | nil => exact turn_idle w 0
    | cons r rest => exact turn_handleRequest hrequests answer bound results
  | pollConnect sock answer => exact turn_pollConnect w sock answer
  | pollAccept sock peer => exact turn_pollAccept w sock peer
  | pollSend sock results => exact turn_pollSend w sock results
  | pollRecv sock answer => exact absurd rfl (hst sock answer)
  | pollUdp sock answer ip port => exact turn_pollUdp w sock answer ip port
  | slirpRx bytes => exact turn_slirpRx w bytes

theorem step_receives (st : Step) :
    ∃ st' ev, Turn (w.stepSock st) (w.stepRequest st) st' ev w (w.step st) ∧
      ∀ e, ev = some e → e.evt = .rxTcp →
        ∃ sock answer, st = .pollRecv sock answer ∧ w.receives sock answer = true := by
  by_cases hst : ∃ sock answer, st = .pollRecv sock answer
  · obtain ⟨sock, answer, rfl⟩ := hst
    obtain ⟨st', ev, hturn, hreceives⟩ := turn_pollRecv w sock answer
    exact ⟨st', ev, hturn, fun e he hrx => ⟨sock, answer, rfl, hreceives e he hrx⟩⟩
  · obtain ⟨st', ev, hturn, hev⟩ := step_dry w st (fun sock answer heq => hst ⟨sock, answer, heq⟩)
    exact ⟨st', ev, hturn, fun e he hrx => absurd hrx (hev e he)⟩

theorem step_turn (st : Step) :
    ∃ st' ev, Turn (w.stepSock st) (w.stepRequest st) st' ev w (w.step st) := by
  obtain ⟨st', ev, hturn, _⟩ := step_receives w st
  exact ⟨st', ev, hturn⟩

end

end NetWorker

end GSSquared.Uthernet
