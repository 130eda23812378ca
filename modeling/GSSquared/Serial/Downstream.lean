/-
What the other end sends, and what goes to the guest.
-/
import GSSquared.Serial.Upstream

set_option linter.all false

namespace GSSquared.Serial

open Bits Wire Telnet

namespace DevQueue

def log (q : DevQueue) : List SerialMessage := q.taken ++ q.messages

def roomFor : Nat → Nat → (Nat → Nat) → Bool
  | 0, _, _ => true
  | n + 1, count, drains =>
    decide (count - drains 0 < queueDepth) && roomFor n (count - drains 0 + 1) (fun i => drains (i + 1))

def room (text : List Byte) (q : DevQueue) : Bool := roomFor text.length q.messages.length q.drains

def textMessages (text : List Byte) : List SerialMessage := text.map (fun b => ⟨.data, b.toNat⟩)

section

variable (q : DevQueue) (msg : SerialMessage) (bs : List Byte)

theorem drain_log : q.drain.log = q.log := by
  show (q.taken ++ q.messages.take _) ++ q.messages.drop _ = q.taken ++ q.messages
  rw [List.append_assoc, List.take_append_drop]

theorem trySend_room (h : q.drain.messages.length < queueDepth) :
    q.trySend msg = (true, { q.drain with messages := q.drain.messages ++ [msg] }) := by
  unfold trySend Serial.send
  dsimp only
  rw [if_pos h]

theorem trySend_full (h : ¬q.drain.messages.length < queueDepth) : q.trySend msg = (false, q.drain) := by
  unfold trySend Serial.send
  dsimp only
  rw [if_neg h]

theorem send_room (h : q.drain.messages.length < queueDepth) :
    q.send msg = (true, { q.drain with messages := q.drain.messages ++ [msg] }) := by
  unfold send
  rw [trySend_room q msg h]
  rfl

theorem send_full (h : ¬q.drain.messages.length < queueDepth) :
    q.send msg = (false, { q.drain with dropped := q.drain.dropped + 1 }) := by
  unfold send
  rw [trySend_full q msg h]
  rfl

theorem pushed_log : DevQueue.log { q.drain with messages := q.drain.messages ++ [msg] } = q.log ++ [msg] := by
  show q.drain.taken ++ (q.drain.messages ++ [msg]) = q.log ++ [msg]
  rw [← List.append_assoc]
  exact congrArg (· ++ [msg]) (drain_log q)

theorem send_log : (∃ msgs, (q.send msg).2.log = q.log ++ msgs) ∧ (q.send msg).2.clipped = q.clipped := by
  by_cases h : q.drain.messages.length < queueDepth
  · rw [send_room q msg h]
    exact ⟨⟨[msg], pushed_log q msg⟩, rfl⟩
  · rw [send_full q msg h]
    exact ⟨⟨[], (drain_log q).trans (List.append_nil _).symm⟩, rfl⟩

theorem trySend_log : (∃ msgs, (∀ m ∈ msgs, m = msg) ∧ (q.trySend msg).2.log = q.log ++ msgs) ∧
    (q.trySend msg).2.clipped = q.clipped := by
  by_cases h : q.drain.messages.length < queueDepth
  · rw [trySend_room q msg h]
    exact ⟨⟨[msg], fun m hm => List.mem_singleton.mp hm, pushed_log q msg⟩, rfl⟩
  · rw [trySend_full q msg h]
    exact ⟨⟨[], fun _ hm => absurd hm List.not_mem_nil, (drain_log q).trans (List.append_nil _).symm⟩, rfl⟩

theorem drain_length : q.drain.messages.length = q.messages.length - q.drains 0 := List.length_drop

theorem sendText_room (h : q.room bs = true) :
    (q.sendText bs).log = q.log ++ textMessages bs ∧ (q.sendText bs).clipped = q.clipped := by
  unfold room at h
  induction bs generalizing q with
  | nil => exact ⟨(List.append_nil _).symm, rfl⟩
  | cons b bs ih =>
    rw [List.length_cons, roomFor, Bool.and_eq_true, decide_eq_true_eq] at h
    obtain ⟨hroom, hrest⟩ := h
    rw [← drain_length] at hroom hrest
    unfold sendText
    rw [send_room q _ hroom]
    dsimp only
    rw [if_pos rfl]
    obtain ⟨hlog, hclipped⟩ := ih { q.drain with messages := q.drain.messages ++ [⟨.data, b.toNat⟩] }
      (by rw [List.length_append, List.length_singleton]; exact hrest)
    refine ⟨?_, hclipped⟩
    rw [hlog, pushed_log, List.append_assoc]
    rfl

theorem fill_log : ∃ done, bs = done ++ (q.fill bs).1 ∧ (q.fill bs).2.log = q.log ++ textMessages done ∧
    (q.fill bs).2.clipped = q.clipped := by
  induction bs generalizing q with
  | nil => exact ⟨[], rfl, (List.append_nil _).symm, rfl⟩
  | cons b bs ih =>
    unfold fill isFull
    dsimp only
    split
    · exact ⟨[], rfl, (drain_log q).trans (List.append_nil _).symm, rfl⟩
    · by_cases hroom : q.drain.drain.messages.length < queueDepth
      · rw [send_room _ _ hroom]
        rw [if_pos rfl]
        obtain ⟨done, hbs, hlog, hclipped⟩ := ih { q.drain.drain with messages := q.drain.drain.messages ++ [⟨.data, b.toNat⟩] }
        refine ⟨b :: done, congrArg (b :: ·) hbs, ?_, hclipped⟩
        rw [hlog, pushed_log, drain_log, List.append_assoc]
        rfl
      · rw [send_full _ _ hroom]
        rw [if_neg Bool.false_ne_true]
        refine ⟨[], rfl, ?_, rfl⟩
        show DevQueue.log q.drain.drain = _
        rw [drain_log, drain_log]
        exact (List.append_nil _).symm

end

end DevQueue

namespace Modem

/-! ## What has come -/

/-- What has been read from each connection, how much had been queued when the call began, and what was
queued for each call by its end. -/
structure Heard where
  received : Nat → List Byte := fun _ => []
  mark : Nat := 0
  ended : Nat → Option (List Byte) := fun _ => none

def characters (msgs : List SerialMessage) : List Byte :=
  msgs.filterMap (fun msg => if msg.type = .data then some (BitVec.ofNat 8 msg.data) else none)

def delivered (mark : Nat) (m : Modem) : List Byte := characters (m.queue.log.drop mark)

def readNow (e : Nat × Event) (m : Modem) : List Byte :=
  match e.2 with
  | .poll => if m.stopped = false ∧ m.reportLines.due = true then (m.net.reads 0).getD [] else []
  | _ => []

def isShutdown (e : Nat × Event) : Bool :=
  match e.2 with
  | .message msg => msg.type == .shutdown
  | _ => false

/-- What a step adds: `m` is the state before it and `t` the state after it. -/
def hear (e : Nat × Event) (m t : Modem) (g : Heard) : Heard where
  received c := if m.socket = some c then g.received c ++ readNow e m else g.received c
  mark := if m.state = .command ∧ t.state = .online then t.queue.log.length else g.mark
  ended c :=
    if m.socket = some c ∧ m.state ≠ .command ∧ t.socket ≠ some c ∧ isShutdown e = false then some (t.delivered g.mark)
    else g.ended c

def listen (es : List (Nat × Event)) (p : Modem × Heard) : Modem × Heard :=
  es.foldl (fun p e => (p.1.step e, hear e p.1 (p.1.step e) p.2)) p

/-- In a call, the data of what has been read has been queued, or waits in the buffer; when it has ended,
all of it has been queued before the response; and no character of a response has been dropped. -/
structure Delivered (m : Modem) (g : Heard) : Prop where
  data : ∀ c, m.socket = some c → m.state ≠ .command → m.delivered g.mark ++ m.tcpBuffer = payload .data (g.received c)
  ended : ∀ c bytes, g.ended c = some bytes → bytes = payload .data (g.received c) ++ lostText
  whole : m.queue.clipped = 0

/-! ## Which runs -/

def placeOf : TelnetState → Place
  | .data => .data
  | .iac => .command
  | .negotiate => .option

def plain : Place → List Byte → Bool
  | _, [] => true
  | p, b :: bs => decide ((Telnet.step p b).1 ≠ .sub) && plain (Telnet.step p b).1 bs

def connectAnswer (slices : Nat → Slice) (m : Modem) : List Byte :=
  if (m.dialWait 600 slices).1 ≠ .success then noCarrierText else connectText

def dialAnswer (address : List Byte) (m : Modem) : List Byte :=
  let d := m.net.dials 0
  if (portText address).any (fun text => !isPort text) then errorText
  else if !d.resolves then noCarrierText
  else if (m.dialWait 200 d.resolving).1 ≠ .success then noCarrierText
  else if !d.creates then noCarrierText
  else connectAnswer d.connecting m

def answer (cmd : List Byte) (m : Modem) : List Byte :=
  match cmd with
  | [] => okText
  | c :: rest =>
    if c = 0x44 then if addressOf rest = [] then errorText else dialAnswer (addressOf rest) m
    else if c = 0x48 ∨ c = 0x5A ∨ c = 0x56 ∨ c = 0x51 then okText
    else if c = 0x45 ∧ (rest.head? = some 0x30 ∨ rest.head? = some 0x31) then okText
    else errorText

def sends (byte : Byte) (silence : Nat) (m : Modem) : Nat :=
  match m.state with
  | .command => 0
  | .online =>
    if byte = 0x2B then
      if m.escapeCount = 0 then if 1000 ≤ silence then 0 else 1
      else if m.escapeCount < 3 then if silence < 500 then 0 else m.escapeCount + 1
      else 0
    else m.escapeCount + 1
  | .escape => if silence < 1000 then 4 else 0

def ready (m : Modem) : Bool := m.tcpBuffer == [] && m.queue.room lostText

/-- The guest's side leaves room for every response; nothing waits in the buffer when a call ends; and no
subnegotiation comes. -/
def Fits (e : Nat × Event) (m : Modem) : Prop :=
  m.stopped = false → match e.2 with
  | .poll => m.reportLines.due = true →
      match m.net.reads 0 with
      | none => m.reportLines.drainTcpBufferToQueue.ready = true
      | some bytes => plain (placeOf m.telnetState) bytes = true
  | .message msg =>
    match msg.type with
    | .data =>
      let byte := BitVec.ofNat 8 msg.data
      if m.state = .command then
        byte = 13 ∨ byte = 10 → m.commandBuffer ≠ [] →
          let t := (m.tick e.1).echo byte
          t.queue.room (answer t.command t) = true
      else
        m.socket ≠ none → (∃ i, i < m.sends byte (m.clock + e.1 - m.lastCharTime) ∧ m.net.writes i = false) → m.ready = true
    | .modemCtl => m.drops msg.data = true → m.queue.room lostText = true ∧ (m.state ≠ .command → m.tcpBuffer = [])
    | _ => True
  | .settle => m.state = .escape ∧ 1000 ≤ m.clock + e.1 - m.lastCharTime → m.queue.room okText = true

instance decidableFits : ∀ (e : Nat × Event) (m : Modem), Decidable (Fits e m)
  | (wait, .poll), m =>
    match hread : m.net.reads 0 with
    | none =>
      decidable_of_iff (m.stopped = false → m.reportLines.due = true → m.reportLines.drainTcpBufferToQueue.ready = true)
        (by show _ ↔ (_ → _ → match m.net.reads 0 with | none => _ | some _ => _); rw [hread])
    | some bytes =>
      decidable_of_iff (m.stopped = false → m.reportLines.due = true → plain (placeOf m.telnetState) bytes = true)
        (by show _ ↔ (_ → _ → match m.net.reads 0 with | none => _ | some _ => _); rw [hread])
  | (_, .settle), _ => inferInstanceAs (Decidable (_ → _ ∧ _ → _))
  | (wait, .message ⟨.data, data⟩), m =>
    let byte := BitVec.ofNat 8 data
    let t := (m.tick wait).echo byte
    if hstate : m.state = .command then
      decidable_of_iff (m.stopped = false → byte = 13 ∨ byte = 10 → m.commandBuffer ≠ [] →
          t.queue.room (answer t.command t) = true)
        (by show _ ↔ (_ → if m.state = .command then _ else _); rw [if_pos hstate])
    else
      decidable_of_iff (m.stopped = false → m.socket ≠ none →
          (∃ i, i < m.sends byte (m.clock + wait - m.lastCharTime) ∧ m.net.writes i = false) → m.ready = true)
        (by show _ ↔ (_ → if m.state = .command then _ else _); rw [if_neg hstate])
  | (_, .message ⟨.modemCtl, _⟩), _ => inferInstanceAs (Decidable (_ → _ → _ ∧ (_ → _)))
  | (_, .message ⟨.shutdown, _⟩), _ | (_, .message ⟨.breakOn, _⟩), _ | (_, .message ⟨.breakOff, _⟩), _
  | (_, .message ⟨.close, _⟩), _ | (_, .message ⟨.line, _⟩), _ | (_, .message ⟨.modemStatus, _⟩), _ =>
    inferInstanceAs (Decidable (_ → True))

def Fitting : List (Nat × Event) → Modem → Prop
  | [], _ => True
  | e :: es, m => Fits e m ∧ Fitting es (m.step e)

instance decidableFitting : ∀ (es : List (Nat × Event)) (m : Modem), Decidable (Fitting es m)
  | [], _ => inferInstanceAs (Decidable True)
  | e :: es, m =>
    have := decidableFitting es (m.step e)
    inferInstanceAs (Decidable (Fits e m ∧ Fitting es (m.step e)))

/-! ## What the pieces do -/

section

variable {m t r : Modem} {c n : Nat} {bs cs : List Byte} {b : Byte}

theorem characters_append (xs ys : List SerialMessage) : characters (xs ++ ys) = characters xs ++ characters ys :=
  List.filterMap_append

theorem characters_text (bs : List Byte) : characters (DevQueue.textMessages bs) = bs := by
  induction bs with
  | nil => rfl
  | cons b bs ih =>
    show (BitVec.ofNat 8 b.toNat) :: characters (DevQueue.textMessages bs) = b :: bs
    rw [ih, BitVec.ofNat_toNat, BitVec.setWidth_eq]

/-- The bytes `bs` have been read, in a call that goes on. -/
structure Moved (bs : List Byte) (m t : Modem) : Prop where
  command : t.state = .command ↔ m.state = .command
  socket : t.socket = m.socket
  calls : t.net.calls = m.net.calls
  clipped : t.queue.clipped = m.queue.clipped
  place : placeOf t.telnetState = Telnet.place (placeOf m.telnetState) bs
  queued : ∃ msgs, t.queue.log = m.queue.log ++ msgs ∧
    characters msgs ++ t.tcpBuffer = m.tcpBuffer ++ payload (placeOf m.telnetState) bs

theorem Moved.trans (h : Moved bs m t) (h' : Moved cs t r) : Moved (bs ++ cs) m r := by
  obtain ⟨xs, hxs, hbs⟩ := h.queued
  obtain ⟨ys, hys, hcs⟩ := h'.queued
  refine ⟨h'.command.trans h.command, h'.socket.trans h.socket, h'.calls.trans h.calls, h'.clipped.trans h.clipped, ?_, xs ++ ys, ?_, ?_⟩
  · rw [h'.place, h.place, place_append]
  · rw [hys, hxs, List.append_assoc]
  · rw [characters_append, List.append_assoc, hcs, ← List.append_assoc, hbs, payload_append, List.append_assoc, h.place]

theorem moved_same (hcommand : t.state = .command ↔ m.state = .command) (hsocket : t.socket = m.socket)
    (hcalls : t.net.calls = m.net.calls) (hqueue : t.queue = m.queue) (htelnet : t.telnetState = m.telnetState)
    (hbuffer : t.tcpBuffer = m.tcpBuffer) : Moved [] m t := by
  refine ⟨hcommand, hsocket, hcalls, by rw [hqueue], by rw [htelnet]; rfl, [], ?_, ?_⟩
  · rw [hqueue, List.append_nil]
  · rw [hbuffer]
    exact (List.append_nil _).symm

theorem moved_drain (m : Modem) : Moved [] m m.drainTcpBufferToQueue := by
  obtain ⟨done, hbuffer, hlog, hclipped⟩ := DevQueue.fill_log m.queue m.tcpBuffer
  refine ⟨Iff.rfl, rfl, rfl, hclipped, rfl, DevQueue.textMessages done, hlog, ?_⟩
  rw [characters_text]
  exact (hbuffer.symm.trans (List.append_nil _).symm)

theorem moved_reportLines (m : Modem) : Moved [] m m.reportLines := by
  unfold reportLines
  split
  · exact moved_same Iff.rfl rfl rfl rfl rfl rfl
  · obtain ⟨⟨msgs, hmsgs, hlog⟩, hclipped⟩ :=
      DevQueue.trySend_log m.queue ⟨.modemStatus, (if m.socket.isSome then 1 else 0) ||| 2 ||| 8⟩
    have hnone : characters msgs = [] := by
      refine List.filterMap_eq_nil_iff.mpr (fun msg hmsg => ?_)
      rw [hmsgs msg hmsg]
      rfl
    generalize m.queue.trySend _ = r at hlog hclipped ⊢
    dsimp only
    split
    all_goals
      refine ⟨Iff.rfl, rfl, rfl, hclipped, rfl, msgs, hlog, ?_⟩
      rw [hnone]
      exact (List.append_nil _).symm

theorem sendTelnetResponse_same (command option : Byte) (m : Modem) : Moved [] m (m.sendTelnetResponse command option) := by
  unfold sendTelnetResponse writeSocket
  split <;> exact moved_same Iff.rfl rfl rfl rfl rfl rfl

theorem sendTelnetResponse_buffer (command option : Byte) (m : Modem) :
    (m.sendTelnetResponse command option).tcpBuffer = m.tcpBuffer ∧
      (m.sendTelnetResponse command option).queue = m.queue ∧
        (m.sendTelnetResponse command option).telnetState = m.telnetState := by
  unfold sendTelnetResponse writeSocket
  split <;> exact ⟨rfl, rfl, rfl⟩

theorem option_iff (hb : b ≠ 255) : (b = 251 ∨ b = 252 ∨ b = 253 ∨ b = 254) ↔ 251 ≤ b.toNat := by
  have hlt := b.isLt
  have h255 : b.toNat ≠ 255 := fun h => hb (BitVec.eq_of_toNat_eq h)
  constructor
  · rintro (rfl | rfl | rfl | rfl) <;> decide
  · intro hle
    have hcases : b.toNat = 251 ∨ b.toNat = 252 ∨ b.toNat = 253 ∨ b.toNat = 254 := by omega
    rcases hcases with h | h | h | h
    · exact .inl (BitVec.eq_of_toNat_eq h)
    · exact .inr (.inl (BitVec.eq_of_toNat_eq h))
    · exact .inr (.inr (.inl (BitVec.eq_of_toNat_eq h)))
    · exact .inr (.inr (.inr (BitVec.eq_of_toNat_eq h)))

theorem moved_processTelnetByte (hplain : (Telnet.step (placeOf m.telnetState) b).1 ≠ .sub) :
    Moved [b] m (m.processTelnetByte b) := by
  have hmove : ∀ (buffer : List Byte) (state : TelnetState) (command : Byte),
      placeOf state = (Telnet.step (placeOf m.telnetState) b).1 →
        buffer = m.tcpBuffer ++ (Telnet.step (placeOf m.telnetState) b).2.toList →
          Moved [b] m { m with tcpBuffer := buffer, telnetState := state, telnetCommand := command } := by
    intro buffer state command hplace hbuffer
    refine ⟨Iff.rfl, rfl, rfl, rfl, hplace, [], (List.append_nil _).symm, ?_⟩
    exact hbuffer.trans (congrArg (m.tcpBuffer ++ ·) (List.append_nil _).symm)
  unfold processTelnetByte
  split
  · next hstate =>
    rw [hstate] at hmove
    split
    · next hb =>
      refine hmove m.tcpBuffer .iac m.telnetCommand ?_ ?_
      · rw [hb]
        rfl
      · rw [hb]
        exact (List.append_nil _).symm
    · next hb =>
      have hstep : Telnet.step (placeOf .data) b = (.data, some b) := if_neg hb
      refine hmove (m.tcpBuffer ++ [b]) m.telnetState m.telnetCommand ?_ ?_
      · rw [hstep, hstate]
        rfl
      · rw [hstep]
        rfl
  · next hstate =>
    rw [hstate] at hmove hplain
    split
    · next hb =>
      refine hmove (m.tcpBuffer ++ [255]) .data m.telnetCommand ?_ ?_
      · rw [hb]
        rfl
      · rw [hb]
        rfl
    next hb =>
    split
    · next hoption =>
      have hstep : Telnet.step (placeOf .iac) b = (.option, none) := by
        show (if b = 255 then _ else _) = _
        rw [if_neg hb, if_pos ((option_iff hb).mp hoption)]
      refine hmove m.tcpBuffer .negotiate b ?_ ?_
      · rw [hstep]
        rfl
      · rw [hstep]
        exact (List.append_nil _).symm
    next hoption =>
    have hlow : ¬251 ≤ b.toNat := fun h => hoption ((option_iff hb).mpr h)
    split
    · next hsub =>
      refine absurd ?_ hplain
      show (if b = 255 then _ else _ : Place × Option Byte).1 = _
      rw [if_neg hb, if_neg hlow, if_pos hsub]
    · next hsub =>
      have hstep : Telnet.step (placeOf .iac) b = (.data, none) := by
        show (if b = 255 then _ else _) = _
        rw [if_neg hb, if_neg hlow, if_neg hsub]
      refine hmove m.tcpBuffer .data m.telnetCommand ?_ ?_
      · rw [hstep]
        rfl
      · rw [hstep]
        exact (List.append_nil _).symm
  · next hstate =>
    have hreply : ∀ t : Modem, Moved [] m t → Moved [b] m { t with telnetState := .data } := by
      intro t ht
      obtain ⟨msgs, hlog, hchars⟩ := ht.queued
      refine ⟨ht.command, ht.socket, ht.calls, ht.clipped, ?_, msgs, hlog, ?_⟩
      · rw [hstate]
        rfl
      · rw [hstate]
        exact hchars
    refine hreply _ ?_
    split
    · split <;> exact sendTelnetResponse_same _ _ m
    split
    · split <;> exact sendTelnetResponse_same _ _ m
    · exact moved_same Iff.rfl rfl rfl rfl rfl rfl

theorem moved_processTelnetBytes (hplain : plain (placeOf m.telnetState) bs = true) :
    Moved bs m (m.processTelnetBytes bs) := by
  induction bs generalizing m with
  | nil => exact moved_same Iff.rfl rfl rfl rfl rfl rfl
  | cons b bs ih =>
    rw [plain, Bool.and_eq_true, decide_eq_true_eq] at hplain
    have hb := moved_processTelnetByte hplain.1
    have hrest := ih (m := m.processTelnetByte b) (by rw [hb.place]; exact hplain.2)
    exact hb.trans hrest

structure Ended (m t : Modem) : Prop where
  socket : t.socket = none
  calls : t.net.calls = m.net.calls
  queue : t.queue = m.queue.sendText lostText

theorem sendLost_hangup (m : Modem) : m.sendLost.hangup.queue = m.queue.sendText lostText := by
  simp only [hangup, sendLost, sendResponse]

theorem checkTcpData_down (honline : m.state = .online) :
    (m.due = false ∧ Moved [] m m.checkTcpData) ∨
      (m.due = true ∧ m.net.reads 0 = none ∧ Ended m.drainTcpBufferToQueue m.checkTcpData) ∨
        (m.due = true ∧ ∃ bytes, m.net.reads 0 = some bytes ∧
          (plain (placeOf m.telnetState) bytes = true → Moved bytes m m.checkTcpData)) := by
  unfold checkTcpData due
  split
  · next hsocket =>
    rw [hsocket]
    refine .inl ⟨?_, moved_same Iff.rfl rfl rfl rfl rfl rfl⟩
    rw [Option.isSome_none, Bool.and_false, Bool.false_and]
  next hsocket =>
  rw [honline, Option.isSome_iff_ne_none.mpr hsocket]
  dsimp only
  split
  · next hfull =>
    refine .inl ⟨?_, moved_drain m⟩
    rw [decide_eq_false (Nat.not_lt.mpr hfull), Bool.and_false]
  next hroom =>
  rw [decide_eq_true (Nat.lt_of_not_le hroom)]
  have hread : ∀ t : Modem, Moved [] t t.readSocket.2 := fun _ => moved_same Iff.rfl rfl rfl rfl rfl rfl
  have hgot := (moved_drain m).trans (hread m.drainTcpBufferToQueue)
  have hqueue : m.drainTcpBufferToQueue.readSocket.2.queue = m.drainTcpBufferToQueue.queue := rfl
  have htelnet : m.drainTcpBufferToQueue.readSocket.2.telnetState = m.telnetState := rfl
  split
  · next r hr =>
    rw [hr] at hgot hqueue
    refine .inr (.inl ⟨rfl, congrArg Prod.fst hr, rfl, hgot.calls, ?_⟩)
    rw [sendLost_hangup, hqueue]
  · next r hr =>
    rw [hr] at hgot
    exact .inr (.inr ⟨rfl, [], congrArg Prod.fst hr, fun _ => hgot⟩)
  · next bytes r _ hr =>
    rw [hr] at hgot htelnet
    refine .inr (.inr ⟨rfl, bytes, congrArg Prod.fst hr, fun hplain => ?_⟩)
    have hbytes := moved_processTelnetBytes (m := r) (by rw [htelnet]; exact hplain)
    have hall := (hgot.trans hbytes).trans (moved_drain _)
    rwa [List.append_nil, List.append_nil, List.nil_append] at hall

/-! ### Bytes that go up -/

/-- So many bytes have been sent, or the call was lost. -/
structure Passed (n : Nat) (m t : Modem) : Prop where
  pending : t.shutdownPending = m.shutdownPending
  stopped : t.stopped = m.stopped
  calls : t.net.calls = m.net.calls
  fate : (t.state = m.state ∧ t.socket = m.socket ∧ t.queue = m.queue ∧ t.telnetState = m.telnetState ∧ t.tcpBuffer = m.tcpBuffer ∧
      (m.socket ≠ none → ∀ i, t.net.writes i = m.net.writes (i + n))) ∨
    (m.socket ≠ none ∧ (∃ i, i < n ∧ m.net.writes i = false) ∧ t.socket = none ∧ t.queue = m.queue.sendText lostText)

theorem Passed.zero (m : Modem) : Passed 0 m m := ⟨rfl, rfl, rfl, .inl ⟨rfl, rfl, rfl, rfl, rfl, fun _ _ => rfl⟩⟩

theorem sendTcpData_none (hsocket : m.socket = none) (b : Byte) : m.sendTcpData b = m := if_pos hsocket

theorem passed_one (hsocket : m.socket ≠ none) (b : Byte) : Passed 1 m (m.sendTcpData b) := by
  obtain ⟨c, hc⟩ := Option.ne_none_iff_exists'.mp hsocket
  unfold sendTcpData
  rw [if_neg hsocket]
  unfold writeSocket
  generalize (if b = 255 then [255, 255] else [b]) = bytes
  rw [hc]
  cases hwrite : m.net.writes 0 with
  | true =>
    rw [if_pos rfl]
    exact ⟨rfl, rfl, rfl, .inl ⟨rfl, hc.symm, rfl, rfl, rfl, fun _ _ => rfl⟩⟩
  | false =>
    rw [if_neg Bool.false_ne_true]
    refine ⟨rfl, rfl, rfl, .inr ⟨hsocket, ⟨0, Nat.one_pos, hwrite⟩, rfl, ?_⟩⟩
    rw [sendLost_hangup]

theorem Passed.snoc (h : Passed n m t) (b : Byte) : Passed (n + 1) m (t.sendTcpData b) := by
  rcases h.fate with ⟨hstate, hsocket, hqueue, htelnet, hbuffer, hwrites⟩ | ⟨hsome, ⟨i, hi, hfail⟩, hnone, hqueue⟩
  · by_cases hs : m.socket = none
    · rw [sendTcpData_none (hsocket.trans hs)]
      exact ⟨h.pending, h.stopped, h.calls, .inl ⟨hstate, hsocket, hqueue, htelnet, hbuffer, fun hne => absurd hs hne⟩⟩
    · have hb := passed_one (m := t) (by rw [hsocket]; exact hs) b
      refine ⟨hb.pending.trans h.pending, hb.stopped.trans h.stopped, hb.calls.trans h.calls, ?_⟩
      rcases hb.fate with ⟨hstate', hsocket', hqueue', htelnet', hbuffer', hwrites'⟩ | ⟨hsome, ⟨i, hi, hfail⟩, hnone, hqueue'⟩
      · refine .inl ⟨hstate'.trans hstate, hsocket'.trans hsocket, hqueue'.trans hqueue, htelnet'.trans htelnet,
          hbuffer'.trans hbuffer, fun hne i => ?_⟩
        rw [hwrites' (by rw [hsocket]; exact hne), hwrites hne, Nat.add_assoc, Nat.add_comm 1 n]
      · refine .inr ⟨hs, ⟨n, Nat.lt_succ_self n, ?_⟩, hnone, hqueue'.trans (by rw [hqueue])⟩
        have hzero : i = 0 := by omega
        rw [hzero, hwrites hs, Nat.zero_add] at hfail
        exact hfail
  · rw [sendTcpData_none hnone]
    exact ⟨h.pending, h.stopped, h.calls, .inr ⟨hsome, ⟨i, by omega, hfail⟩, hnone, hqueue⟩⟩

theorem Passed.pluses (h : Passed n m t) (k : Nat) : Passed (n + k) m (sendPluses k t) := by
  induction k generalizing n t with
  | zero => exact h
  | succ k ih =>
    have hrest := ih (h.snoc 0x2B)
    rwa [Nat.add_assoc, Nat.add_comm 1 k] at hrest

structure Bytewise (n : Nat) (m t : Modem) : Prop where
  pending : t.shutdownPending = m.shutdownPending
  stopped : t.stopped = m.stopped
  fate : Moved [] m t ∨ (m.socket ≠ none ∧ (∃ i, i < n ∧ m.net.writes i = false) ∧ Ended m t)

theorem Passed.bytewise (h : Passed n m t) (hstate : m.state ≠ .command) {state : ModemState} (hstate' : state ≠ .command ∨ state = t.state)
    (count : Nat) : Bytewise n m { t with state := state, escapeCount := count } := by
  refine ⟨h.pending, h.stopped, ?_⟩
  rcases h.fate with ⟨hs, hsocket, hqueue, htelnet, hbuffer, _⟩ | ⟨hsome, hfail, hnone, hqueue⟩
  · refine .inl (moved_same ⟨fun hno => ?_, fun hno => absurd hno hstate⟩ hsocket h.calls hqueue htelnet hbuffer)
    rcases hstate' with hne | heq
    · exact absurd hno hne
    · exact absurd (hs.symm.trans (heq.symm.trans hno)) hstate
  · exact .inr ⟨hsome, hfail, hnone, h.calls, hqueue⟩

theorem bytewise_onlineByte (hstate : m.state = .online) (b : Byte) (silence : Nat) :
    Bytewise (m.sends b silence) m (m.onlineByte b silence) := by
  have hnot : m.state ≠ .command := by
    rw [hstate]
    decide
  have hpluses := (Passed.zero m).pluses m.escapeCount
  rw [Nat.zero_add] at hpluses
  unfold sends
  rw [hstate]
  unfold onlineByte
  by_cases hb : b = 0x2B
  · rw [if_pos hb, if_pos hb]
    by_cases hzero : m.escapeCount = 0
    · rw [if_pos hzero, if_pos hzero]
      by_cases hlong : 1000 ≤ silence
      · rw [if_pos hlong, if_pos hlong]
        exact (Passed.zero m).bytewise hnot (.inr rfl) 1
      · rw [if_neg hlong, if_neg hlong]
        exact ((Passed.zero m).snoc b).bytewise hnot (.inr rfl) _
    · rw [if_neg hzero, if_neg hzero]
      by_cases hthree : m.escapeCount < 3
      · rw [if_pos hthree, if_pos hthree]
        by_cases hquick : silence < 500
        · rw [if_pos hquick, if_pos hquick]
          refine (Passed.zero m).bytewise hnot (.inl ?_) _
          split
          · decide
          · exact hnot
        · rw [if_neg hquick, if_neg hquick]
          exact (hpluses.snoc b).bytewise hnot (.inr rfl) 0
      · rw [if_neg hthree, if_neg hthree]
        exact (Passed.zero m).bytewise hnot (.inr rfl) _
  · rw [if_neg hb, if_neg hb]
    by_cases hpos : 0 < m.escapeCount
    · rw [if_pos hpos]
      have hcounted : Passed m.escapeCount m { sendPluses m.escapeCount m with escapeCount := 0 } :=
        ⟨hpluses.pending, hpluses.stopped, hpluses.calls, hpluses.fate⟩
      exact (hcounted.snoc b).bytewise hnot (.inr rfl) _
    · rw [if_neg hpos, Nat.eq_zero_of_not_pos hpos]
      exact ((Passed.zero m).snoc b).bytewise hnot (.inr rfl) _

theorem bytewise_escapeByte (hstate : m.state = .escape) (b : Byte) (silence : Nat) :
    Bytewise (m.sends b silence) m (m.escapeByte b silence) := by
  have hnot : m.state ≠ .command := by
    rw [hstate]
    decide
  unfold sends
  rw [hstate]
  dsimp only
  unfold escapeByte
  split
  · exact (((Passed.zero m).pluses 3).snoc b).bytewise hnot (.inl (by decide)) 0
  · exact (Passed.zero m).bytewise hnot (.inr rfl) _

/-! ### Commands -/

theorem dialAborted_fst (msgs : List SerialMessage) (m t : Modem) : (m.dialAborted msgs).1 = (t.dialAborted msgs).1 := by
  induction msgs with
  | nil => rfl
  | cons msg msgs ih =>
    unfold dialAborted
    split
    · rfl
    · rfl
    · exact ih

theorem dialWait_fst (k : Nat) (slices : Nat → Slice) (m t : Modem) : (m.dialWait k slices).1 = (t.dialWait k slices).1 := by
  induction k generalizing slices m t with
  | zero => rfl
  | succ k ih =>
    unfold dialWait
    dsimp only
    rw [dialAborted_fst (slices 0).messages m t]
    split
    · rfl
    split
    · rfl
    · exact ih _ _ _

/-- What a command leaves of the way down: its answer, and a call that has nothing to deliver yet if it makes one. -/
structure Answered (text : List Byte) (m t : Modem) : Prop where
  queue : t.queue = m.queue.sendText text
  call : t.state = .online → t.tcpBuffer = [] ∧ t.telnetState = .data

theorem answered_say (text : List Byte) (hqueue : t.queue = m.queue)
    (hcall : t.state = .online → t.tcpBuffer = [] ∧ t.telnetState = .data) : Answered text m (t.sendResponse text) :=
  ⟨congrArg (DevQueue.sendText text) hqueue, hcall⟩

theorem answered_command (text : List Byte) (hqueue : t.queue = m.queue) (hstate : t.state = .command) :
    Answered text m (t.sendResponse text) :=
  answered_say text hqueue (fun honline => by rw [hstate] at honline; cases honline)

theorem answered_noCarrier (hqueue : t.queue = m.queue) (hstate : t.state = .command) :
    Answered noCarrierText m t.sendNoCarrierResponse := answered_command noCarrierText hqueue hstate

theorem answered_connect (slices : Nat → Slice) (hqueue : t.queue = m.queue) (hstate : t.state = .command) :
    Answered (connectAnswer slices m) m (t.connect slices) := by
  obtain ⟨p, hp⟩ := dialWait_same 600 slices t
  unfold connect connectAnswer
  dsimp only
  rw [hp, dialWait_fst 600 slices t m]
  split
  · exact answered_noCarrier hqueue hstate
  · obtain ⟨hbuffer, hqueue', htelnet⟩ := sendTelnetResponse_buffer 251 0
      { t with shutdownPending := p, state := .online, telnetState := .data, tcpBuffer := [] }
    obtain ⟨hbuffer', hqueue'', htelnet'⟩ := sendTelnetResponse_buffer 253 0
      ({ t with shutdownPending := p, state := .online, telnetState := .data, tcpBuffer := [] }.sendTelnetResponse 251 0)
    exact answered_say _ (hqueue''.trans (hqueue'.trans hqueue)) (fun _ => ⟨hbuffer'.trans hbuffer, htelnet'.trans htelnet⟩)

theorem answered_dial (address : List Byte) (hstate : m.state = .command) :
    Answered (dialAnswer address m) m (m.dial address) := by
  have hfree : (if m.socket ≠ none then m.hangup else m).state = .command ∧
      (if m.socket ≠ none then m.hangup else m).queue = m.queue ∧ (if m.socket ≠ none then m.hangup else m).net = m.net := by
    split
    · exact ⟨rfl, rfl, rfl⟩
    · exact ⟨hstate, rfl, rfl⟩
  unfold dial dialAnswer
  dsimp only
  generalize (if m.socket ≠ none then m.hangup else m) = t at hfree ⊢
  obtain ⟨hcommand, hqueue, hnet⟩ := hfree
  rw [hnet]
  split
  · exact answered_command _ hqueue hcommand
  split
  · exact answered_noCarrier hqueue hcommand
  obtain ⟨p, hp⟩ := dialWait_same 200 (m.net.dials 0).resolving t.nextDial
  rw [hp, dialWait_fst 200 _ t.nextDial m]
  split
  · exact answered_noCarrier hqueue hcommand
  split
  · exact answered_noCarrier hqueue hcommand
  · exact answered_connect _ hqueue hcommand

theorem answered_perform (cmd : List Byte) (hstate : m.state = .command) : Answered (answer cmd m) m (m.perform cmd) := by
  have hsay : ∀ text, Answered text m (m.sendResponse text) := fun text => answered_command text rfl hstate
  have hecho : ∀ echo text, Answered text m ({ m with commandEcho := echo }.sendResponse text) :=
    fun echo text => answered_command text rfl hstate
  cases cmd with
  | nil => exact hsay _
  | cons c rest =>
  unfold answer perform
  dsimp only
  by_cases hdial : c = 0x44
  · rw [if_pos hdial, if_pos hdial]
    split
    · exact hsay _
    · exact answered_dial _ hstate
  rw [if_neg hdial, if_neg hdial]
  by_cases hhang : c = 0x48 ∨ c = 0x5A
  · rw [if_pos (hhang.elim .inl (fun h => .inr (.inl h))), if_pos hhang]
    exact answered_command _ rfl rfl
  rw [if_neg hhang]
  by_cases hecho' : c = 0x45
  · have hnot : ¬(c = 0x48 ∨ c = 0x5A ∨ c = 0x56 ∨ c = 0x51) := by
      rw [hecho']
      decide
    rw [if_neg hnot, if_pos hecho']
    by_cases hoff : rest.head? = some 0x30
    · rw [if_pos ⟨hecho', .inl hoff⟩, if_pos hoff]
      exact hecho _ _
    by_cases hon : rest.head? = some 0x31
    · rw [if_pos ⟨hecho', .inr hon⟩, if_neg hoff, if_pos hon]
      exact hecho _ _
    · rw [if_neg (fun h => h.2.elim hoff hon), if_neg hoff, if_neg hon]
      exact hsay _
  rw [if_neg hecho']
  by_cases hquiet : c = 0x56 ∨ c = 0x51
  · rw [if_pos (.inr (.inr hquiet)), if_pos hquiet]
    exact hsay _
  · rw [if_neg (fun h => h.elim (fun h => hhang (.inl h)) (fun h => h.elim (fun h => hhang (.inr h)) hquiet)),
      if_neg (fun h => hecho' h.1), if_neg hquiet]
    exact hsay _

end

/-! ## Steps -/

structure Keeps (m : Modem) (g : Heard) : Prop where
  data : ∀ c, m.socket = some c → m.state ≠ .command →
    m.delivered g.mark ++ m.tcpBuffer = payload .data (g.received c) ∧
      placeOf m.telnetState = Telnet.place .data (g.received c)
  ended : ∀ c bytes, g.ended c = some bytes → bytes = payload .data (g.received c) ++ lostText
  whole : m.queue.clipped = 0
  marked : g.mark ≤ m.queue.log.length
  fresh : ∀ c, m.net.calls ≤ c → g.received c = []
  known : ∀ c, m.socket = some c → c < m.net.calls
  past : ∀ c bytes, g.ended c = some bytes → c < m.net.calls ∧ m.socket ≠ some c
  pending : m.stopped = false → m.shutdownPending = false

section

variable {m t r : Modem} {g g' : Heard} {e : Nat × Event} {c : Nat} {bs : List Byte}

theorem delivered_append {msgs : List SerialMessage} (hmark : g.mark ≤ m.queue.log.length) (hlog : t.queue.log = m.queue.log ++ msgs) :
    t.delivered g.mark = m.delivered g.mark ++ characters msgs := by
  unfold delivered
  rw [hlog, List.drop_append_of_le_length hmark, characters_append]

theorem Keeps.moved (h : Keeps m g) (hm : Moved bs m t)
    (hreceived : ∀ c, g'.received c = if m.socket = some c then g.received c ++ bs else g.received c)
    (hmark : g'.mark = g.mark) (hended : g'.ended = g.ended) (hpending : t.stopped = false → t.shutdownPending = false) :
    Keeps t g' := by
  obtain ⟨msgs, hlog, hchars⟩ := hm.queued
  have hsame : ∀ c, m.socket ≠ some c → g'.received c = g.received c := by
    intro c hc
    rw [hreceived, if_neg hc]
  refine ⟨fun c hc hno => ?_, fun c bytes hb => ?_, hm.clipped.trans h.whole, ?_, fun c hc => ?_, ?_, fun c bytes hb => ?_, hpending⟩
  · rw [hm.socket] at hc
    have hno : m.state ≠ .command := fun hs => hno (hm.command.mpr hs)
    obtain ⟨hdata, hplace⟩ := h.data c hc hno
    rw [hreceived, if_pos hc, hmark, delivered_append h.marked hlog, List.append_assoc, hchars, ← List.append_assoc, hdata,
      payload_append, hm.place, hplace, place_append]
    exact ⟨rfl, rfl⟩
  · rw [hended] at hb
    rw [hsame c (h.past c bytes hb).2]
    exact h.ended c bytes hb
  · rw [hmark, hlog, List.length_append]
    exact Nat.le_trans h.marked (Nat.le_add_right _ _)
  · rw [hm.calls] at hc
    rw [hsame c (fun hs => absurd (h.known c hs) (Nat.not_lt.mpr hc))]
    exact h.fresh c hc
  · rw [hm.socket, hm.calls]
    exact h.known
  · rw [hended] at hb
    rw [hm.calls, hm.socket]
    exact h.past c bytes hb

theorem Keeps.lost (h : Keeps m g) (hc : m.socket = some c) (hno : m.state ≠ .command) (ht : Ended m t) (hready : m.ready = true)
    (hreceived : g'.received = g.received) (hmark : g'.mark = g.mark)
    (hended : ∀ i, g'.ended i = if i = c then some (t.delivered g.mark) else g.ended i)
    (hpending : t.stopped = false → t.shutdownPending = false) : Keeps t g' := by
  unfold ready at hready
  rw [Bool.and_eq_true, beq_iff_eq] at hready
  obtain ⟨hbuffer, hroom⟩ := hready
  obtain ⟨hlog, hclipped⟩ := DevQueue.sendText_room m.queue lostText hroom
  rw [← ht.queue] at hlog hclipped
  have hdelivered := delivered_append (g := g) h.marked hlog
  rw [characters_text] at hdelivered
  obtain ⟨hdata, _⟩ := h.data c hc hno
  rw [hbuffer, List.append_nil] at hdata
  have hnone : ∀ i, t.socket ≠ some i := fun i => by
    rw [ht.socket]
    exact (Option.some_ne_none i).symm
  refine ⟨fun i hi => absurd hi (hnone i), fun i bytes hb => ?_, hclipped.trans h.whole, ?_, fun i hi => ?_,
    fun i hi => absurd hi (hnone i), fun i bytes hb => ⟨?_, hnone i⟩, hpending⟩
  · rw [hended] at hb
    rw [hreceived]
    split at hb
    · next hi =>
      rw [hi, ← hdata, ← hdelivered]
      exact (Option.some.inj hb).symm
    · exact h.ended i bytes hb
  · rw [hmark, hlog, List.length_append]
    exact Nat.le_trans h.marked (Nat.le_add_right _ _)
  · rw [ht.calls] at hi
    rw [hreceived]
    exact h.fresh i hi
  · rw [hended] at hb
    rw [ht.calls]
    split at hb
    · next hi =>
      rw [hi]
      exact h.known c hc
    · exact (h.past i bytes hb).1

theorem Keeps.idle (h : Keeps m g) {msgs : List SerialMessage} (hlog : t.queue.log = m.queue.log ++ msgs)
    (hclipped : t.queue.clipped = m.queue.clipped) (hcalls : m.net.calls ≤ t.net.calls)
    (hsocket : t.socket = m.socket ∨ t.socket = none) (hcommand : t.socket ≠ none → t.state = .command)
    (hreceived : g'.received = g.received) (hended : g'.ended = g.ended) (hmark : g'.mark = g.mark)
    (hpending : t.stopped = false → t.shutdownPending = false) : Keeps t g' := by
  have hsame : ∀ c, t.socket = some c → m.socket = some c := by
    intro c hc
    rcases hsocket with hs | hs
    · rw [← hs, hc]
    · rw [hs] at hc
      cases hc
  refine ⟨fun c hc hno => ?_, ?_, hclipped.trans h.whole, ?_, fun c hc => ?_, fun c hc => ?_, fun c bytes hb => ?_, hpending⟩
  · exact absurd (hcommand (by rw [hc]; exact Option.some_ne_none c)) hno
  · rw [hended, hreceived]
    exact h.ended
  · rw [hmark, hlog, List.length_append]
    exact Nat.le_trans h.marked (Nat.le_add_right _ _)
  · rw [hreceived]
    exact h.fresh c (Nat.le_trans hcalls hc)
  · exact Nat.lt_of_lt_of_le (h.known c (hsame c hc)) hcalls
  · rw [hended] at hb
    obtain ⟨hlt, hne⟩ := h.past c bytes hb
    exact ⟨Nat.lt_of_lt_of_le hlt hcalls, fun hs => hne (hsame c hs)⟩

theorem Keeps.begins (h : Keeps m g) (hclipped : t.queue.clipped = m.queue.clipped) (hsocket : t.socket = some c)
    (hnew : m.net.calls ≤ c) (hold : c < t.net.calls) (hbuffer : t.tcpBuffer = []) (htelnet : t.telnetState = .data)
    (hreceived : g'.received = g.received) (hended : g'.ended = g.ended) (hmark : g'.mark = t.queue.log.length)
    (hpending : t.stopped = false → t.shutdownPending = false) : Keeps t g' := by
  refine ⟨fun i hi _ => ?_, ?_, hclipped.trans h.whole, Nat.le_of_eq hmark, fun i hi => ?_, fun i hi => ?_, fun i bytes hb => ?_,
    hpending⟩
  · rw [hsocket] at hi
    cases hi
    rw [hreceived, h.fresh c hnew, hbuffer, htelnet]
    refine ⟨?_, rfl⟩
    unfold delivered
    rw [hmark, List.drop_length]
    rfl
  · rw [hended, hreceived]
    exact h.ended
  · rw [hreceived]
    exact h.fresh i (by omega)
  · rw [hsocket] at hi
    cases hi
    exact hold
  · rw [hended] at hb
    obtain ⟨hlt, _⟩ := h.past i bytes hb
    refine ⟨by omega, fun hs => ?_⟩
    rw [hsocket] at hs
    cases hs
    omega

theorem hear_same (hcall : ¬(m.state = .command ∧ t.state = .online))
    (hend : ∀ c, ¬(m.socket = some c ∧ m.state ≠ .command ∧ t.socket ≠ some c ∧ isShutdown e = false)) :
    (hear e m t g).mark = g.mark ∧ (hear e m t g).ended = g.ended :=
  ⟨if_neg hcall, funext fun c => if_neg (hend c)⟩

theorem hear_received (hread : readNow e m = []) : (hear e m t g).received = g.received := by
  funext c
  show (if _ then _ else _) = _
  rw [hread]
  split
  · exact List.append_nil _
  · rfl

theorem Keeps.tick (h : Keeps m g) (wait : Nat) : Keeps (m.tick wait) g :=
  ⟨h.data, h.ended, h.whole, h.marked, h.fresh, h.known, h.past, h.pending⟩

theorem hear_ended (hc : m.socket = some c) (hstate : m.state ≠ .command) (hsocket : t.socket = none) (hshutdown : isShutdown e = false)
    (i : Nat) : (hear e m t g).ended i = if i = c then some (t.delivered g.mark) else g.ended i := by
  show (if _ then _ else _) = _
  by_cases hi : i = c
  · rw [if_pos hi, if_pos ⟨by rw [hi]; exact hc, hstate, by rw [hsocket]; exact (Option.some_ne_none i).symm, hshutdown⟩]
  · rw [if_neg hi, if_neg]
    rintro ⟨hs, _⟩
    rw [hc] at hs
    exact hi (Option.some.inj hs).symm

theorem Keeps.still (h : Keeps m g) (hread : readNow e m = []) (hmoved : Moved [] m t) (hstate : m.state = .command → t.state = .command)
    (hpending : t.stopped = false → t.shutdownPending = false) : Keeps t (hear e m t g) := by
  obtain ⟨hmark, hended⟩ := hear_same (g := g) (e := e) (m := m) (t := t)
    (fun hs => by rw [hstate hs.1] at hs; cases hs.2) (fun c hs => hs.2.2.1 (hmoved.socket.trans hs.1))
  refine h.moved hmoved (fun c => ?_) hmark hended hpending
  rw [hear_received hread, List.append_nil]
  split <;> rfl

theorem echo_log (b : Byte) (m : Modem) : (∃ msgs, (m.echo b).queue.log = m.queue.log ++ msgs) ∧
    (m.echo b).queue.clipped = m.queue.clipped ∧ (m.echo b).commandBuffer = m.commandBuffer ∧ (m.echo b).state = m.state := by
  unfold echo
  split
  · obtain ⟨hlog, hclipped⟩ := DevQueue.send_log m.queue ⟨.data, b.toNat⟩
    exact ⟨hlog, hclipped, rfl, rfl⟩
  · exact ⟨⟨[], (List.append_nil _).symm⟩, rfl, rfl, rfl⟩

theorem commandByte_down (hstate : m.state = .command) {b : Byte}
    (hroom : b = 13 ∨ b = 10 → m.commandBuffer ≠ [] →
      (m.echo b).queue.room (answer (m.echo b).command (m.echo b)) = true) :
    (∃ msgs, (m.commandByte b).queue.log = m.queue.log ++ msgs) ∧ (m.commandByte b).queue.clipped = m.queue.clipped ∧
      ((m.commandByte b).state = .online → (m.commandByte b).tcpBuffer = [] ∧ (m.commandByte b).telnetState = .data) := by
  obtain ⟨⟨msgs, hlog⟩, hclipped, hbuffer, hsame⟩ := echo_log b m
  unfold commandByte
  dsimp only
  rw [← hbuffer] at hroom
  have hcommand := hsame.trans hstate
  generalize m.echo b = t at *
  have hidle : t.state = .online → t.tcpBuffer = [] ∧ t.telnetState = .data := by
    rw [hcommand]
    exact nofun
  split
  · next hline =>
    split
    · next hfull =>
      have hanswered := answered_perform t.command hcommand
      obtain ⟨hlog', hclipped'⟩ := DevQueue.sendText_room _ _ (hroom hline hfull)
      rw [← hanswered.queue] at hlog' hclipped'
      refine ⟨⟨msgs ++ DevQueue.textMessages (answer t.command t), ?_⟩, hclipped'.trans hclipped, hanswered.call⟩
      rw [← List.append_assoc, ← hlog]
      exact hlog'
    · exact ⟨⟨msgs, hlog⟩, hclipped, hidle⟩
  split
  · exact ⟨⟨msgs, hlog⟩, hclipped, hidle⟩
  split <;> exact ⟨⟨msgs, hlog⟩, hclipped, hidle⟩

theorem keeps_command (h : Keeps m g) (hstate : m.state = .command) {wait : Nat} {msg : SerialMessage} (hdata : msg.type = .data)
    (hnot : m.stopped = false) (hfits : Fits (wait, .message msg) m) :
    Keeps (m.step (wait, .message msg)) (hear (wait, .message msg) m (m.step (wait, .message msg)) g) := by
  have hfits := hfits hnot
  dsimp only at hfits
  rw [hdata] at hfits
  rw [if_pos hstate] at hfits
  have htick := h.tick wait
  obtain ⟨⟨msgs, hlog⟩, hclipped, hcall⟩ := commandByte_down (m := m.tick wait) hstate hfits
  have hcommanded := commanded_commandByte (m := m.tick wait) (BitVec.ofNat 8 msg.data) hstate
  have hbyte : (m.tick wait).handle msg =
      { (m.tick wait).commandByte (BitVec.ofNat 8 msg.data) with lastCharTime := m.clock + wait } := by
    rw [handle_data hdata, dataByte, show (m.tick wait).state = .command from hstate]
    rfl
  have hread : readNow (wait, .message msg) m = [] := rfl
  have hnoend : ∀ t : Modem, ∀ c, ¬(m.socket = some c ∧ m.state ≠ .command ∧ t.socket ≠ some c ∧
      isShutdown (wait, .message msg) = false) := fun _ _ h => h.2.1 hstate
  rw [step_running hnot, message_handled (by rw [hdata]; decide), hbyte]
  split
  · obtain ⟨hmark, hended⟩ := hear_same (g := g) (e := (wait, .message msg)) (m := m)
      (t := { (Modem.hangup { (m.tick wait).commandByte (BitVec.ofNat 8 msg.data) with lastCharTime := m.clock + wait }) with
        stopped := true }) (by rintro ⟨-, ⟨⟩⟩) (hnoend _)
    exact htick.idle hlog hclipped hcommanded.calls (.inr rfl) (fun hs => absurd rfl hs) (hear_received hread) hended hmark
      (by rintro ⟨⟩)
  · next hpending =>
    have hpending' : ∀ t : Modem, t = { (m.tick wait).commandByte (BitVec.ofNat 8 msg.data) with lastCharTime := m.clock + wait } →
        t.stopped = false → t.shutdownPending = false := by
      rintro t rfl _
      exact Bool.eq_false_iff.mpr hpending
    rcases hcommanded.fate with ⟨hstate', hsocket⟩ | ⟨honline, c, hsocket, hnew, hold⟩
    · obtain ⟨hmark, hended⟩ := hear_same (g := g) (e := (wait, .message msg)) (m := m)
        (t := { (m.tick wait).commandByte (BitVec.ofNat 8 msg.data) with lastCharTime := m.clock + wait })
        (fun h => by rw [show _ = _ from h.2] at hstate'; cases hstate') (hnoend _)
      exact htick.idle hlog hclipped hcommanded.calls hsocket (fun _ => hstate') (hear_received hread) hended hmark
        (hpending' _ rfl)
    · obtain ⟨hbuffer, htelnet⟩ := hcall honline
      exact htick.begins hclipped hsocket hnew hold hbuffer htelnet (hear_received hread)
        (funext fun i => if_neg (hnoend _ i)) (if_pos ⟨hstate, honline⟩) (hpending' _ rfl)

theorem keeps_data (h : Keeps m g) (hstate : m.state ≠ .command) {wait : Nat} {msg : SerialMessage} (hdata : msg.type = .data)
    (hnot : m.stopped = false) (hfits : Fits (wait, .message msg) m) :
    Keeps (m.step (wait, .message msg)) (hear (wait, .message msg) m (m.step (wait, .message msg)) g) := by
  have hfits := hfits hnot
  dsimp only at hfits
  rw [hdata] at hfits
  rw [if_neg hstate] at hfits
  have htick := h.tick wait
  have hbyte : ∃ t, (m.tick wait).handle msg = { t with lastCharTime := m.clock + wait } ∧
      Bytewise ((m.tick wait).sends (BitVec.ofNat 8 msg.data) (m.clock + wait - m.lastCharTime)) (m.tick wait) t := by
    rw [handle_data hdata, dataByte]
    cases hmode : m.state with
    | command => exact absurd hmode hstate
    | online =>
      rw [show (m.tick wait).state = .online from hmode]
      exact ⟨_, rfl, bytewise_onlineByte (m := m.tick wait) hmode _ _⟩
    | escape =>
      rw [show (m.tick wait).state = .escape from hmode]
      exact ⟨_, rfl, bytewise_escapeByte (m := m.tick wait) hmode _ _⟩
  obtain ⟨t, hhandle, hbytewise⟩ := hbyte
  have hpending : t.stopped = false → t.shutdownPending = false := by
    intro _
    exact hbytewise.pending.trans (h.pending hnot)
  have hplain : ((m.tick wait).handle msg).shutdownPending = false := by
    rw [hhandle]
    exact hbytewise.pending.trans (h.pending hnot)
  rw [step_running hnot, message_plain (by rw [hdata]; decide) hplain, hhandle]
  have hread : readNow (wait, .message msg) m = [] := rfl
  have hshutdown : isShutdown (wait, .message msg) = false := by
    show (msg.type == .shutdown) = false
    rw [hdata]
    rfl
  rcases hbytewise.fate with hmoved | ⟨hsome, hfail, hlost⟩
  · have hmoved' : Moved [] m { t with lastCharTime := m.clock + wait } :=
      ⟨hmoved.command, hmoved.socket, hmoved.calls, hmoved.clipped, hmoved.place, hmoved.queued⟩
    exact h.still hread hmoved' (fun hs => absurd hs hstate) hpending
  · obtain ⟨c, hc⟩ := Option.ne_none_iff_exists'.mp hsome
    have hc : m.socket = some c := hc
    have hended : Ended (m.tick wait) { t with lastCharTime := m.clock + wait } := ⟨hlost.socket, hlost.calls, hlost.queue⟩
    exact htick.lost hc hstate hended (hfits (by rw [hc]; exact Option.some_ne_none c) hfail) (hear_received hread)
      (if_neg (fun h => hstate h.1)) (hear_ended hc hstate hended.socket hshutdown) hpending

theorem drops_iff {data : Nat} : m.drops data = true ↔ m.dtrSeen ∧ m.lastDtr ∧ ¬data % 2 = 1 ∧ m.socket ≠ none := by
  unfold drops
  rw [Bool.and_eq_true, Bool.and_eq_true, Bool.and_eq_true, decide_eq_true_eq, Option.isSome_iff_ne_none, and_assoc, and_assoc]

theorem ended_hangup (m : Modem) : Ended m m.hangup.sendLost := by
  refine ⟨rfl, rfl, ?_⟩
  simp only [sendLost, sendResponse, hangup]

theorem modemCtl_drops {data : Nat} (hdrop : m.drops data = true) :
    Ended m (m.modemCtl data) ∧ (m.modemCtl data).state = .command := by
  have hended := ended_hangup m
  have hctl : m.modemCtl data = { m.hangup.sendLost with lastDtr := decide (data % 2 = 1), dtrSeen := true } := by
    unfold modemCtl
    dsimp only
    rw [if_pos (drops_iff.mp hdrop)]
  rw [hctl]
  generalize hlost : m.hangup.sendLost = t at hended ⊢
  refine ⟨⟨hended.socket, hended.calls, hended.queue⟩, ?_⟩
  rw [← hlost]
  rfl

theorem modemCtl_stays {data : Nat} (hdrop : ¬m.drops data = true) :
    m.modemCtl data = { m with lastDtr := decide (data % 2 = 1), dtrSeen := true } := by
  unfold modemCtl
  dsimp only
  rw [if_neg (fun h => hdrop (drops_iff.mpr h))]

theorem keeps_modemCtl (h : Keeps m g) {wait : Nat} {msg : SerialMessage} (htype : msg.type = .modemCtl) (hnot : m.stopped = false)
    (hfits : m.drops msg.data = true → m.queue.room lostText = true ∧ (m.state ≠ .command → m.tcpBuffer = [])) :
    Keeps ((m.tick wait).modemCtl msg.data) (hear (wait, .message msg) m ((m.tick wait).modemCtl msg.data) g) := by
  have htick := h.tick wait
  have hread : readNow (wait, .message msg) m = [] := rfl
  have hshutdown : isShutdown (wait, .message msg) = false := by
    show (msg.type == .shutdown) = false
    rw [htype]
    rfl
  have hpending : ((m.tick wait).modemCtl msg.data).stopped = false →
      ((m.tick wait).modemCtl msg.data).shutdownPending = false :=
    fun _ => (modemCtl_kept msg.data (m.tick wait)).1.trans (h.pending hnot)
  by_cases hdrop : m.drops msg.data = true
  · obtain ⟨hroom, hempty⟩ := hfits hdrop
    obtain ⟨hended, hcommand⟩ := modemCtl_drops (m := m.tick wait) hdrop
    by_cases hstate : m.state = .command
    · obtain ⟨hlog, hclipped⟩ := DevQueue.sendText_room m.queue lostText hroom
      obtain ⟨hmark, hended'⟩ := hear_same (g := g) (e := (wait, .message msg)) (m := m)
        (t := (m.tick wait).modemCtl msg.data) (fun hs => by rw [hcommand] at hs; cases hs.2) (fun c hs => hs.2.1 hstate)
      have hqueue : ((m.tick wait).modemCtl msg.data).queue = m.queue.sendText lostText := hended.queue
      rw [← hqueue] at hlog hclipped
      exact htick.idle hlog hclipped (Nat.le_of_eq hended.calls.symm) (.inr hended.socket) (fun _ => hcommand)
        (hear_received hread) hended' hmark hpending
    · obtain ⟨c, hc⟩ := Option.ne_none_iff_exists'.mp (drops_iff.mp hdrop).2.2.2
      have hready : (m.tick wait).ready = true := by
        unfold ready
        rw [Bool.and_eq_true, beq_iff_eq]
        exact ⟨hempty hstate, hroom⟩
      exact htick.lost hc hstate hended hready (hear_received hread) (if_neg (fun hs => hstate hs.1))
        (hear_ended hc hstate hended.socket hshutdown) hpending
  · rw [modemCtl_stays (m := m.tick wait) hdrop] at hpending ⊢
    have hmoved : Moved [] m { m.tick wait with lastDtr := decide (msg.data % 2 = 1), dtrSeen := true } :=
      moved_same Iff.rfl rfl rfl rfl rfl rfl
    exact h.still hread hmoved id hpending

theorem keeps_control (h : Keeps m g) {wait : Nat} {msg : SerialMessage} (hdata : msg.type ≠ .data) (hnot : m.stopped = false)
    (hfits : Fits (wait, .message msg) m) :
    Keeps (m.step (wait, .message msg)) (hear (wait, .message msg) m (m.step (wait, .message msg)) g) := by
  have hfits := hfits hnot
  dsimp only at hfits
  have hread : readNow (wait, .message msg) m = [] := rfl
  rw [step_running hnot]
  have hplain : (m.tick wait).handle msg = m.tick wait → msg.type ≠ .shutdown →
      Keeps ((m.tick wait).message msg) (hear (wait, .message msg) m ((m.tick wait).message msg) g) := by
    intro hhandle htype
    rw [message_plain htype (by rw [hhandle]; exact h.pending hnot), hhandle]
    exact h.still hread (moved_same Iff.rfl rfl rfl rfl rfl rfl) id h.pending
  cases htype : msg.type with
  | data => exact absurd htype hdata
  | shutdown =>
    have hstep : (m.tick wait).message msg = { (m.tick wait).hangup with stopped := true } := by
      unfold message
      rw [htype]
    have hshutdown : isShutdown (wait, .message msg) = true := by
      show (msg.type == .shutdown) = true
      rw [htype]
      rfl
    rw [hstep]
    obtain ⟨hmark, hended⟩ := hear_same (g := g) (e := (wait, .message msg)) (m := m)
      (t := { (m.tick wait).hangup with stopped := true }) nofun
      (fun c hs => by rw [hshutdown] at hs; cases hs.2.2.2)
    exact (h.tick wait).idle (show _ = _ ++ ([] : List SerialMessage) from (List.append_nil _).symm) rfl (Nat.le_refl _) (.inr rfl) (fun hs => absurd rfl hs)
      (hear_received hread) hended hmark nofun
  | modemCtl =>
    rw [htype] at hfits
    have hhandle : (m.tick wait).handle msg = (m.tick wait).modemCtl msg.data := by
      unfold handle
      rw [htype]
    have hpending := (modemCtl_kept msg.data (m.tick wait)).1.trans (h.pending hnot)
    rw [message_plain (by rw [htype]; decide) (by rw [hhandle]; exact hpending), hhandle]
    exact keeps_modemCtl h htype hnot hfits
  | breakOn => exact hplain (by unfold handle; rw [htype]) (by rw [htype]; decide)
  | breakOff => exact hplain (by unfold handle; rw [htype]) (by rw [htype]; decide)
  | close => exact hplain (by unfold handle; rw [htype]) (by rw [htype]; decide)
  | line => exact hplain (by unfold handle; rw [htype]) (by rw [htype]; decide)
  | modemStatus => exact hplain (by unfold handle; rw [htype]) (by rw [htype]; decide)

theorem reportLines_net (m : Modem) : m.reportLines.net = m.net ∧ m.reportLines.telnetState = m.telnetState := by
  unfold reportLines
  generalize m.queue.trySend _ = r
  split
  · exact ⟨rfl, rfl⟩
  · dsimp only
    split <;> exact ⟨rfl, rfl⟩

theorem keeps_poll (h : Keeps m g) (hnot : m.stopped = false) {wait : Nat} (hfits : Fits (wait, .poll) m) :
    Keeps (m.step (wait, .poll)) (hear (wait, .poll) m (m.step (wait, .poll)) g) := by
  have hstep : m.step (wait, .poll) = if (m.tick wait).reportLines.state = .online then
      (m.tick wait).reportLines.checkTcpData else (m.tick wait).reportLines := by
    unfold Modem.step
    rw [hnot]
    rfl
  have hfits := hfits hnot
  obtain ⟨hnet, htelnet⟩ := reportLines_net m
  have hquiet := quiet_reportLines m
  have hreport : Moved [] m (m.reportLines.tick wait) := by
    have hmoved := moved_reportLines m
    exact ⟨hmoved.command, hmoved.socket, hmoved.calls, hmoved.clipped, hmoved.place, hmoved.queued⟩
  have hpending : (m.reportLines.tick wait).shutdownPending = false := hquiet.pending.trans (h.pending hnot)
  have hcommand : m.state = .command → (m.reportLines.tick wait).state = .command := fun hs => hquiet.state.trans hs
  have hread : m.reportLines.due = false → readNow (wait, .poll) m = [] := by
    intro hdue
    refine if_neg (fun hno => ?_)
    rw [hdue] at hno
    cases hno.2
  rw [hstep, reportLines_tick]
  by_cases honline : (m.reportLines.tick wait).state = .online
  case neg =>
    rw [if_neg honline]
    refine h.still (hread ?_) hreport hcommand (fun _ => hpending)
    unfold due
    rw [beq_eq_false_iff_ne.mpr (show m.reportLines.state ≠ .online from honline), Bool.false_and, Bool.false_and]
  rw [if_pos honline]
  have hstate : m.state ≠ .command := by
    intro hs
    rw [hcommand hs] at honline
    cases honline
  have hpending' : ((m.reportLines.tick wait).checkTcpData).stopped = false →
      ((m.reportLines.tick wait).checkTcpData).shutdownPending = false := by
    intro _
    rcases checkTcpData_cases (m.reportLines.tick wait) with hq | ⟨hh, _⟩
    · exact hq.pending.trans hpending
    · exact hh.pending.trans hpending
  rcases checkTcpData_down honline with ⟨hdue, hmoved⟩ | ⟨hdue, hnone, hended⟩ | ⟨hdue, bytes, hbytes, hmoved⟩
  · have hall := hreport.trans hmoved
    exact h.still (hread hdue) hall (fun hs => absurd hs hstate) hpending'
  · have hnone : m.net.reads 0 = none := hnet ▸ hnone
    have hfits := hfits hdue
    rw [hnone] at hfits
    have hdrained := hreport.trans (moved_drain (m.reportLines.tick wait))
    have hkeeps : Keeps (m.reportLines.tick wait).drainTcpBufferToQueue g := by
      refine h.moved hdrained (fun c => ?_) rfl rfl (fun _ => hpending)
      split
      · exact (List.append_nil _).symm
      · rfl
    have hdue' := hdue
    unfold due at hdue'
    rw [Bool.and_eq_true, Bool.and_eq_true] at hdue'
    obtain ⟨c, hc⟩ := Option.isSome_iff_exists.mp hdue'.1.2
    have hread : readNow (wait, .poll) m = [] := by
      show (if _ then _ else _) = _
      rw [hnone]
      split <;> rfl
    have hsocket : m.socket = some c := hquiet.socket.symm.trans hc
    exact hkeeps.lost hc (fun hs => hstate (hdrained.command.mp hs)) hended hfits (hear_received hread)
      (if_neg (fun hs => hstate hs.1)) (hear_ended hsocket hstate hended.socket rfl) hpending'
  · have hbytes : m.net.reads 0 = some bytes := hnet ▸ hbytes
    have hfits := hfits hdue
    rw [hbytes] at hfits
    have hall := hreport.trans (hmoved (by
      show plain (placeOf m.reportLines.telnetState) bytes = true
      rw [htelnet]
      exact hfits))
    have hread : readNow (wait, .poll) m = bytes := by
      show (if _ then _ else _) = _
      rw [if_pos ⟨hnot, hdue⟩, hbytes]
      rfl
    obtain ⟨hmark, hended⟩ := hear_same (g := g) (e := (wait, .poll)) (m := m)
      (t := (m.reportLines.tick wait).checkTcpData) (fun hs => hstate hs.1) (fun c hs => hs.2.2.1 (hall.socket.trans hs.1))
    refine h.moved hall (fun c => ?_) hmark hended hpending'
    show (if _ then _ else _) = _
    rw [hread]
    rfl

theorem handleEscapeSequence_queue (m : Modem) : m.handleEscapeSequence.queue = m.queue.sendText okText := by
  simp only [handleEscapeSequence, sendOkResponse, sendResponse]

theorem keeps_settle (h : Keeps m g) (hnot : m.stopped = false) {wait : Nat} (hfits : Fits (wait, .settle) m) :
    Keeps (m.step (wait, .settle)) (hear (wait, .settle) m (m.step (wait, .settle)) g) := by
  have hread : readNow (wait, .settle) m = [] := rfl
  by_cases hdone : m.state = .escape ∧ 1000 ≤ (m.tick wait).clock - m.lastCharTime
  · have hstep : m.step (wait, .settle) = (m.tick wait).handleEscapeSequence := by
      unfold Modem.step
      rw [hnot]
      exact if_pos hdone
    rw [hstep]
    obtain ⟨hlog, hclipped⟩ := DevQueue.sendText_room m.queue okText (hfits hnot hdone)
    have hqueue : (m.tick wait).handleEscapeSequence.queue = m.queue.sendText okText := handleEscapeSequence_queue _
    rw [← hqueue] at hlog hclipped
    obtain ⟨hmark, hended⟩ := hear_same (g := g) (e := (wait, .settle)) (m := m)
      (t := (m.tick wait).handleEscapeSequence) (fun hs => by rw [hdone.1] at hs; cases hs.1) (fun c hs => hs.2.2.1 hs.1)
    exact (h.tick wait).idle hlog hclipped (Nat.le_refl _) (.inl rfl) (fun _ => rfl) (hear_received hread) hended hmark h.pending
  · have hstep : m.step (wait, .settle) = m.tick wait := by
      unfold Modem.step
      rw [hnot]
      exact if_neg hdone
    rw [hstep]
    exact h.still hread (moved_same Iff.rfl rfl rfl rfl rfl rfl) id h.pending

theorem keeps_step (h : Keeps m g) (hfits : Fits e m) : Keeps (m.step e) (hear e m (m.step e) g) := by
  obtain ⟨wait, event⟩ := e
  cases hstopped : m.stopped with
  | true =>
    have hstep : m.step (wait, event) = m := if_pos hstopped
    rw [hstep]
    refine h.still ?_ (moved_same Iff.rfl rfl rfl rfl rfl rfl) id h.pending
    unfold readNow
    split
    · exact if_neg (fun hno => by rw [hstopped] at hno; cases hno.1)
    · rfl
  | false =>
    cases event with
    | poll => exact keeps_poll h hstopped hfits
    | message msg =>
      by_cases hdata : msg.type = .data
      · by_cases hstate : m.state = .command
        · exact keeps_command h hstate hdata hstopped hfits
        · exact keeps_data h hstate hdata hstopped hfits
      · exact keeps_control h hdata hstopped hfits
    | settle => exact keeps_settle h hstopped hfits

/-! ## Runs -/

theorem Keeps.delivered (h : Keeps m g) : Delivered m g := ⟨fun c hc hno => (h.data c hc hno).1, h.ended, h.whole⟩

theorem keeps_listen (es : List (Nat × Event)) (h : Keeps m g) (hfits : Fitting es m) :
    Keeps (listen es (m, g)).1 (listen es (m, g)).2 := by
  induction es generalizing m g with
  | nil => exact h
  | cons e es ih => exact ih (keeps_step h hfits.1) hfits.2

end

theorem keeps_start (drains : Nat → Nat) (writes : Nat → Bool) (reads : Nat → Option (List Byte)) (dials : Nat → Dialing) :
    Keeps (start drains writes reads dials) {} :=
  ⟨nofun, nofun, rfl, Nat.zero_le _, fun _ _ => rfl, nofun, nofun, fun _ => rfl⟩

/-- However the stream is cut into reads and however fast the guest takes it, the data of a call comes down whole, in a
run that fits. -/
theorem downstream_delivered (drains : Nat → Nat) (writes : Nat → Bool) (reads : Nat → Option (List Byte))
    (dials : Nat → Dialing) (es : List (Nat × Event)) (hfits : Fitting es (start drains writes reads dials)) :
    Delivered (listen es (start drains writes reads dials, {})).1 (listen es (start drains writes reads dials, {})).2 :=
  (keeps_listen es (keeps_start drains writes reads dials) hfits).delivered

def called : List (Nat × Event) := (0, .poll) :: dialled ++ [(0, .settle), (0, .poll), (0, .settle), (0, .poll)]

def answering (bytes : List Byte) (n : Nat) : Option (List Byte) := if n = 0 then some bytes else none

theorem downstream_delivered_answered :
    Delivered
      (listen called (start (fun _ => 127) (fun _ => true) (answering [72, 255, 255, 73]) (fun _ => answered), {})).1
      (listen called (start (fun _ => 127) (fun _ => true) (answering [72, 255, 255, 73]) (fun _ => answered), {})).2 :=
  downstream_delivered _ _ _ _ _ (by decide +kernel)

def negotiating : Modem := start (fun _ => 127) (fun _ => true) (answering [255, 250, 24, 1, 255, 240]) (fun _ => answered)

/-- What is in a subnegotiation comes down as data. -/
theorem subnegotiation_leaks : ¬Delivered (listen called (negotiating, {})).1 (listen called (negotiating, {})).2 := by
  intro h
  have hended : (listen called (negotiating, {})).2.ended 0 = some ([24, 1] ++ lostText) := by decide +kernel
  have hreceived : payload .data ((listen called (negotiating, {})).2.received 0) = [] := by decide +kernel
  have hall := h.ended 0 _ hended
  rw [hreceived] at hall
  exact absurd hall (by decide +kernel)

end Modem

end GSSquared.Serial
