/-
What the guest types, and what goes to the other end.
-/
import GSSquared.Serial.Modem
import GSSquared.Lib.Telnet

set_option linter.all false

namespace GSSquared.Serial.Modem

open Bits Wire Telnet

/-! ## What was typed -/

/-- The bytes typed in data mode for each connection, each with the silence before it; the silence
after which a connection was left for command mode; and whether one was lost as a byte was sent. -/
structure Typed where
  typed : Nat → List (Nat × Byte) := fun _ => []
  left : Nat → Option Nat := fun _ => none
  lost : Nat → Bool := fun _ => false

def accepted (e : Nat × Event) (m : Modem) : Option (Nat × Byte) :=
  match e.2 with
  | .message msg =>
    if msg.type = .data ∧ m.stopped = false ∧ m.state ≠ .command then
      some (m.clock + e.1 - m.lastCharTime, BitVec.ofNat 8 msg.data)
    else none
  | _ => none

/-- What a step adds: `m` is the state before it and `t` the state after it. -/
def record (e : Nat × Event) (m t : Modem) (g : Typed) : Typed where
  typed c := if m.socket = some c then g.typed c ++ (accepted e m).toList else g.typed c
  left c :=
    if m.socket = some c ∧ t.socket = some c ∧ m.state ≠ .command ∧ t.state = .command then
      some (t.clock - t.lastCharTime)
    else g.left c
  lost c := if m.socket = some c ∧ t.socket ≠ some c ∧ accepted e m ≠ none then true else g.lost c

def follow (es : List (Nat × Event)) (p : Modem × Typed) : Modem × Typed :=
  es.foldl (fun p e => (p.1.step e, record e p.1 (p.1.step e) p.2)) p

/-- The beginning of an escape: `+` after a second of silence, and up to two more that follow quickly. -/
def Opening : List (Nat × Byte) → Prop
  | [] => True
  | p :: ps => 1000 ≤ p.1 ∧ p.2 = 0x2B ∧ ps.length ≤ 2 ∧ ∀ q ∈ ps, q.1 < 500 ∧ q.2 = 0x2B

/-- Three `+` that only need a second of silence to be an escape. -/
def Escaping (typed : List (Nat × Byte)) : Prop :=
  ∃ sent held, typed = sent ++ held ∧ Opening held ∧ held.length = 3

def said (m : Modem) (c : Nat) : List Byte := payload .data (m.net.wire c)

/-- All that was typed but `rest` has been written. -/
def Written (typed : List (Nat × Byte)) (said : List Byte) (rest : List (Nat × Byte)) : Prop :=
  ∃ sent, typed = sent ++ rest ∧ said = sent.map (·.2)

/-- What was typed for a connection has been written to it, but for the beginning of an escape, the whole of one where
it has left for command mode, and what was being sent when the connection was lost. -/
structure Transparent (m : Modem) (g : Typed) : Prop where
  connected : m.state ≠ .command → m.socket ≠ none
  current : ∀ c, m.socket = some c → m.state ≠ .command → ∃ held, Opening held ∧ Written (g.typed c) (m.said c) held
  parked : ∀ c, m.socket = some c → m.state = .command → g.left c ≠ none
  left : ∀ c n, g.left c = some n → 1000 ≤ n ∧
    ∃ held, Opening held ∧ held.length = 3 ∧ Written (g.typed c) (m.said c) held
  ended : ∀ c, m.socket ≠ some c → g.left c = none →
    ∃ rest, (rest ≠ [] → g.lost c = true) ∧ Written (g.typed c) (m.said c) rest
  /-- An escape is seen at the end of the loop. -/
  seen : ∀ c wait, m.socket = some c → m.stopped = false → m.state ≠ .command → Escaping (g.typed c) →
    1000 ≤ m.clock + wait - m.lastCharTime → (m.step (wait, .settle)).state = .command

/-! ## Which runs -/

/-- A poll reads the connection. -/
def due (m : Modem) : Bool :=
  m.state == .online && m.socket.isSome && decide (m.drainTcpBufferToQueue.tcpBuffer.length < 4096)

/-- It finds that the other end has closed. -/
def closes (m : Modem) : Bool := m.due && (m.net.reads 0).isNone

def drops (data : Nat) (m : Modem) : Bool := m.dtrSeen && m.lastDtr && decide (data % 2 ≠ 1) && m.socket.isSome

/-- No connection is closed while a `+` is held; what comes after three of them comes within a second and
is sent; and no `+` comes a second or more after one that is held. -/
def Suits (e : Nat × Event) (m : Modem) : Prop :=
  m.stopped = false → match e.2 with
  | .poll => m.reportLines.closes = true → m.escapeCount = 0
  | .message msg =>
    match msg.type with
    | .shutdown => m.escapeCount = 0
    | .modemCtl => m.drops msg.data = true → m.escapeCount = 0
    | .data =>
      (m.state = .escape → m.clock + e.1 - m.lastCharTime < 1000 ∧ ∀ i, i < 4 → m.net.writes i = true) ∧
        (m.state = .online → 0 < m.escapeCount → BitVec.ofNat 8 msg.data = (0x2B : Byte) →
          m.clock + e.1 - m.lastCharTime < 1000)
    | _ => True
  | .settle => True

instance decidableSuits : ∀ (e : Nat × Event) (m : Modem), Decidable (Suits e m)
  | (_, .poll), _ => inferInstanceAs (Decidable (_ → _))
  | (_, .settle), _ => inferInstanceAs (Decidable (_ → _))
  | (_, .message ⟨type, _⟩), _ => by cases type <;> exact inferInstanceAs (Decidable (_ → _))

def Suited : List (Nat × Event) → Modem → Prop
  | [], _ => True
  | e :: es, m => Suits e m ∧ Suited es (m.step e)

instance decidableSuited : ∀ (es : List (Nat × Event)) (m : Modem), Decidable (Suited es m)
  | [], _ => inferInstanceAs (Decidable True)
  | e :: es, m =>
    have := decidableSuited es (m.step e)
    inferInstanceAs (Decidable (Suits e m ∧ Suited es (m.step e)))

/-! ## What the pieces do -/

def Clear (m : Modem) : Prop := ∀ c, place .data (m.net.wire c) = .data

/-- The way up is as it was, but for telnet commands. -/
structure Quiet (m t : Modem) : Prop where
  state : t.state = m.state
  socket : t.socket = m.socket
  count : t.escapeCount = m.escapeCount
  calls : t.net.calls = m.net.calls
  last : t.lastCharTime = m.lastCharTime
  clock : t.clock = m.clock
  stopped : t.stopped = m.stopped
  pending : t.shutdownPending = m.shutdownPending
  clear : Clear m → Clear t
  said : Clear m → ∀ c, t.said c = m.said c

structure Hung (m t : Modem) : Prop where
  state : t.state = .command
  socket : t.socket = none
  count : t.escapeCount = m.escapeCount
  calls : t.net.calls = m.net.calls
  clock : t.clock = m.clock
  pending : t.shutdownPending = m.shutdownPending
  clear : Clear m → Clear t
  said : Clear m → ∀ c, t.said c = m.said c

/-- The bytes `bs` have been sent to connection `c`, or as many of them as could be. -/
structure Sent (c : Nat) (bs : List Byte) (m t : Modem) : Prop where
  calls : t.net.calls = m.net.calls
  clock : t.clock = m.clock
  stopped : t.stopped = m.stopped
  pending : t.shutdownPending = m.shutdownPending
  clear : Clear t
  others : ∀ i, i ≠ c → t.said i = m.said i
  fate : (t.said c = m.said c ++ bs ∧ t.state = m.state ∧ t.socket = some c) ∨
    (∃ done rest, bs = done ++ rest ∧ t.said c = m.said c ++ done) ∧ t.state = .command ∧ t.socket = none

section

variable {m t r : Modem} {c : Nat} {bs cs : List Byte} {b : Byte}

theorem Quiet.refl (m : Modem) : Quiet m m := ⟨rfl, rfl, rfl, rfl, rfl, rfl, rfl, rfl, id, fun _ _ => rfl⟩

theorem Quiet.trans (h : Quiet m t) (h' : Quiet t r) : Quiet m r where
  state := h'.state.trans h.state
  socket := h'.socket.trans h.socket
  count := h'.count.trans h.count
  calls := h'.calls.trans h.calls
  last := h'.last.trans h.last
  clock := h'.clock.trans h.clock
  stopped := h'.stopped.trans h.stopped
  pending := h'.pending.trans h.pending
  clear hc := h'.clear (h.clear hc)
  said hc i := (h'.said (h.clear hc) i).trans (h.said hc i)

theorem quiet_sendResponse (text : List Byte) (m : Modem) : Quiet m (m.sendResponse text) :=
  ⟨rfl, rfl, rfl, rfl, rfl, rfl, rfl, rfl, id, fun _ _ => rfl⟩

theorem quiet_drain (m : Modem) : Quiet m m.drainTcpBufferToQueue :=
  ⟨rfl, rfl, rfl, rfl, rfl, rfl, rfl, rfl, id, fun _ _ => rfl⟩

theorem quiet_reportLines (m : Modem) : Quiet m m.reportLines := by
  unfold reportLines
  split
  · exact .refl m
  · generalize m.queue.trySend _ = r
    dsimp only
    split <;> exact ⟨rfl, rfl, rfl, rfl, rfl, rfl, rfl, rfl, id, fun _ _ => rfl⟩

theorem quiet_sendTelnetResponse {command : Byte} (hlow : 251 ≤ command.toNat) (hhigh : command ≠ 255) (option : Byte)
    (m : Modem) : Quiet m (m.sendTelnetResponse command option) := by
  have hplace : place .data [255, command, option] = .data := by
    show (Telnet.step (Telnet.step .command command).1 option).1 = .data
    unfold Telnet.step
    dsimp only
    rw [if_neg hhigh, if_pos hlow]
  have hpayload : payload .data [255, command, option] = [] := by
    show (Telnet.step .command command).2.toList ++ ((Telnet.step (Telnet.step .command command).1 option).2.toList ++ []) = []
    unfold Telnet.step
    dsimp only
    rw [if_neg hhigh, if_pos hlow]
    rfl
  unfold sendTelnetResponse writeSocket
  split
  · exact .refl m
  · refine ⟨rfl, rfl, rfl, rfl, rfl, rfl, rfl, rfl, fun hc i => ?_, fun hc i => ?_⟩
    · show place .data (if _ then _ else _) = _
      split
      · rw [place_append, hc i, hplace]
      · exact hc i
    · show payload .data (if _ then _ else _) = _
      split
      · rw [payload_append, hc i, hpayload, List.append_nil]
        rfl
      · rfl

theorem quiet_processTelnetByte (b : Byte) (m : Modem) : Quiet m (m.processTelnetByte b) := by
  have hsame : ∀ (m : Modem) (buffer : List Byte) (state : TelnetState) (command : Byte),
      Quiet m { m with tcpBuffer := buffer, telnetState := state, telnetCommand := command } :=
    fun _ _ _ _ => ⟨rfl, rfl, rfl, rfl, rfl, rfl, rfl, rfl, id, fun _ _ => rfl⟩
  unfold processTelnetByte
  split
  · split
    · exact hsame m m.tcpBuffer .iac m.telnetCommand
    · exact hsame m (m.tcpBuffer ++ [b]) m.telnetState m.telnetCommand
  · split
    · exact hsame m (m.tcpBuffer ++ [255]) .data m.telnetCommand
    split
    · exact hsame m m.tcpBuffer .negotiate b
    split <;> exact hsame m m.tcpBuffer .data m.telnetCommand
  · refine Quiet.trans (t := _) ?_ (hsame _ _ .data _)
    split
    · split <;> exact quiet_sendTelnetResponse (by decide) (by decide) b m
    split
    · split <;> exact quiet_sendTelnetResponse (by decide) (by decide) b m
    · exact .refl m

theorem quiet_processTelnetBytes (bs : List Byte) (m : Modem) : Quiet m (m.processTelnetBytes bs) := by
  induction bs generalizing m with
  | nil => exact .refl m
  | cons b bs ih => exact (quiet_processTelnetByte b m).trans (ih _)

theorem hung_hangup (m : Modem) : Hung m m.hangup := ⟨rfl, rfl, rfl, rfl, rfl, rfl, id, fun _ _ => rfl⟩

theorem Quiet.hung (h : Quiet m t) (h' : Hung t r) : Hung m r where
  state := h'.state
  socket := h'.socket
  count := h'.count.trans h.count
  calls := h'.calls.trans h.calls
  clock := h'.clock.trans h.clock
  pending := h'.pending.trans h.pending
  clear hc := h'.clear (h.clear hc)
  said hc i := (h'.said (h.clear hc) i).trans (h.said hc i)

theorem Hung.quiet (h : Hung m t) (h' : Quiet t r) : Hung m r where
  state := h'.state.trans h.state
  socket := h'.socket.trans h.socket
  count := h'.count.trans h.count
  calls := h'.calls.trans h.calls
  clock := h'.clock.trans h.clock
  pending := h'.pending.trans h.pending
  clear hc := h'.clear (h.clear hc)
  said hc i := (h'.said (h.clear hc) i).trans (h.said hc i)

theorem checkTcpData_cases (m : Modem) :
    Quiet m m.checkTcpData ∨
      Hung m m.checkTcpData ∧ m.socket ≠ none ∧ m.drainTcpBufferToQueue.tcpBuffer.length < 4096 ∧ m.net.reads 0 = none := by
  unfold checkTcpData
  split
  · exact .inl (.refl m)
  next hsocket =>
  dsimp only
  split
  · exact .inl (quiet_drain m)
  next hroom =>
  have hread : ∀ m : Modem, Quiet m m.readSocket.2 := fun m => ⟨rfl, rfl, rfl, rfl, rfl, rfl, rfl, rfl, id, fun _ _ => rfl⟩
  have hgot := (quiet_drain m).trans (hread m.drainTcpBufferToQueue)
  split
  · next r hr =>
    rw [hr] at hgot
    refine .inr ⟨(hgot.trans (quiet_sendResponse _ r)).hung (hung_hangup _), hsocket, by omega, ?_⟩
    exact congrArg Prod.fst hr
  · next r hr =>
    rw [hr] at hgot
    exact .inl hgot
  · next bytes r _ hr =>
    rw [hr] at hgot
    exact .inl ((hgot.trans (quiet_processTelnetBytes bytes r)).trans (quiet_drain _))

/-! ### Bytes sent -/

theorem Sent.nil (hclear : Clear m) (hsocket : m.socket = some c) : Sent c [] m m :=
  ⟨rfl, rfl, rfl, rfl, hclear, fun _ _ => rfl, .inl ⟨(List.append_nil _).symm, rfl, hsocket⟩⟩

theorem sent_one (hclear : Clear m) (hsocket : m.socket = some c) (b : Byte) : Sent c [b] m (m.sendTcpData b) := by
  have hbytes : (if b = 255 then [255, 255] else [b]) = quoted b := rfl
  unfold sendTcpData
  rw [if_neg (by rw [hsocket]; exact Option.some_ne_none c), hbytes]
  unfold writeSocket
  rw [hsocket]
  dsimp only
  cases hwrite : m.net.writes 0 with
  | true =>
    rw [if_pos rfl]
    refine ⟨rfl, rfl, rfl, rfl, fun i => ?_, fun i hi => ?_, .inl ⟨?_, rfl, rfl⟩⟩
    · show place .data (if _ then _ else _) = _
      split
      · rw [place_append, hclear i, place_quoted]
      · exact hclear i
    · show payload .data (if _ then _ else _) = _
      rw [if_neg (fun h => hi h.1)]
      rfl
    · show payload .data (if _ then _ else _) = _
      rw [if_pos ⟨rfl, rfl⟩, payload_append, hclear c, payload_quoted]
      rfl
  | false =>
    rw [if_neg Bool.false_ne_true]
    have hwire : (fun i => if i = c ∧ false = true then m.net.wire i ++ quoted b else m.net.wire i) = m.net.wire :=
      funext (fun i => if_neg (fun h => Bool.false_ne_true h.2))
    rw [hwire]
    exact ⟨rfl, rfl, rfl, rfl, hclear, fun _ _ => rfl, .inr ⟨⟨[], [b], rfl, (List.append_nil _).symm⟩, rfl, rfl⟩⟩

theorem Sent.snoc (h : Sent c bs m t) (b : Byte) : Sent c (bs ++ [b]) m (t.sendTcpData b) := by
  rcases h.fate with ⟨hsaid, hstate, hsocket⟩ | ⟨⟨done, rest, hbs, hsaid⟩, hstate, hsocket⟩
  · have hb := sent_one h.clear hsocket b
    refine ⟨hb.calls.trans h.calls, hb.clock.trans h.clock, hb.stopped.trans h.stopped,
      hb.pending.trans h.pending, hb.clear, fun i hi => (hb.others i hi).trans (h.others i hi), ?_⟩
    rcases hb.fate with ⟨hsaid', hstate', hsocket'⟩ | ⟨⟨done, rest, hbs, hsaid'⟩, hstate', hsocket'⟩
    · refine .inl ⟨?_, hstate'.trans hstate, hsocket'⟩
      rw [hsaid', hsaid, List.append_assoc]
    · refine .inr ⟨⟨bs ++ done, rest, ?_, ?_⟩, hstate', hsocket'⟩
      · rw [hbs, List.append_assoc]
      · rw [hsaid', hsaid, List.append_assoc]
  · have hnone : t.sendTcpData b = t := by
      unfold sendTcpData
      rw [if_pos hsocket]
    rw [hnone]
    refine ⟨h.calls, h.clock, h.stopped, h.pending, h.clear, h.others, .inr ⟨⟨done, rest ++ [b], ?_, hsaid⟩, hstate, hsocket⟩⟩
    rw [hbs, List.append_assoc]

theorem Sent.pluses (h : Sent c bs m t) (n : Nat) : Sent c (bs ++ List.replicate n 0x2B) m (sendPluses n t) := by
  induction n generalizing bs t with
  | zero =>
    rw [List.replicate_zero, List.append_nil]
    exact h
  | succ n ih =>
    have hrest := ih (h.snoc 0x2B)
    rwa [List.append_assoc] at hrest

theorem Sent.recount (h : Sent c bs m t) (n : Nat) : Sent c bs m { t with escapeCount := n } :=
  ⟨h.calls, h.clock, h.stopped, h.pending, h.clear, h.others, h.fate⟩

theorem writeSocket_count (bytes : List Byte) (m : Modem) : (m.writeSocket bytes).2.escapeCount = m.escapeCount := by
  unfold writeSocket
  split <;> rfl

theorem sendTcpData_count (b : Byte) (m : Modem) : (m.sendTcpData b).escapeCount = m.escapeCount := by
  have hwrite := writeSocket_count (if b = 255 then [255, 255] else [b]) m
  unfold sendTcpData
  generalize m.writeSocket _ = r at hwrite ⊢
  split
  · rfl
  · dsimp only
    split
    · exact hwrite
    · have hlost : Hung r.2 r.2.sendLost.hangup := (quiet_sendResponse _ r.2).hung (hung_hangup _)
      exact hlost.count.trans hwrite

theorem sendTcpData_ok (hsocket : m.socket = some c) (hwrite : m.net.writes 0 = true) (b : Byte) :
    (m.sendTcpData b).socket = some c ∧ ∀ n, (m.sendTcpData b).net.writes n = m.net.writes (n + 1) := by
  unfold sendTcpData
  rw [if_neg (by rw [hsocket]; exact Option.some_ne_none c)]
  unfold writeSocket
  rw [hsocket]
  rw [hwrite, if_pos rfl]
  exact ⟨rfl, fun _ => rfl⟩

theorem sendPluses_ok (n : Nat) (hsocket : m.socket = some c) (hwrites : ∀ i, i < n → m.net.writes i = true) :
    (sendPluses n m).socket = some c ∧ ∀ i, (sendPluses n m).net.writes i = m.net.writes (i + n) := by
  induction n generalizing m with
  | zero => exact ⟨hsocket, fun _ => rfl⟩
  | succ n ih =>
    obtain ⟨hsocket', hrest⟩ := sendTcpData_ok hsocket (hwrites 0 (Nat.succ_pos n)) 0x2B
    obtain ⟨hend, hwrites'⟩ := ih hsocket' (fun i hi => by rw [hrest]; exact hwrites (i + 1) (by omega))
    refine ⟨hend, fun i => ?_⟩
    show (sendPluses n (m.sendTcpData 0x2B)).net.writes i = _
    rw [hwrites', hrest, Nat.add_assoc]

theorem onlineByte_cases (hclear : Clear m) (hsocket : m.socket = some c) (hcount : m.escapeCount < 3) (b : Byte) (silence : Nat) :
    (b = 0x2B ∧ (m.escapeCount = 0 → 1000 ≤ silence) ∧ (0 < m.escapeCount → silence < 500) ∧
      m.onlineByte b silence =
        { m with escapeCount := m.escapeCount + 1, state := if m.escapeCount + 1 = 3 then .escape else m.state }) ∨
    ((b = 0x2B → (m.escapeCount = 0 → silence < 1000) ∧ (0 < m.escapeCount → 500 ≤ silence)) ∧
      Sent c (List.replicate m.escapeCount 0x2B ++ [b]) m (m.onlineByte b silence) ∧ (m.onlineByte b silence).escapeCount = 0) := by
  have hpluses := (Sent.nil hclear hsocket).pluses m.escapeCount
  rw [List.nil_append] at hpluses
  unfold onlineByte
  by_cases hb : b = 0x2B
  · rw [if_pos hb]
    by_cases hzero : m.escapeCount = 0
    · rw [if_pos hzero]
      by_cases hlong : 1000 ≤ silence
      · rw [if_pos hlong]
        refine .inl ⟨hb, fun _ => hlong, fun hpos => by omega, ?_⟩
        rw [hzero, if_neg (by decide)]
      · rw [if_neg hlong]
        refine .inr ⟨fun _ => ⟨fun _ => by omega, fun hpos => by omega⟩, ?_, (sendTcpData_count b m).trans hzero⟩
        rw [hzero]
        exact sent_one hclear hsocket b
    · rw [if_neg hzero, if_pos hcount]
      by_cases hquick : silence < 500
      · rw [if_pos hquick]
        exact .inl ⟨hb, fun h => absurd h hzero, fun _ => hquick, rfl⟩
      · rw [if_neg hquick]
        exact .inr ⟨fun _ => ⟨fun h => absurd h hzero, fun _ => by omega⟩, (hpluses.snoc b).recount 0, rfl⟩
  · rw [if_neg hb]
    refine .inr ⟨fun h => absurd h hb, ?_⟩
    by_cases hpos : 0 < m.escapeCount
    · rw [if_pos hpos]
      exact ⟨(hpluses.recount 0).snoc b, sendTcpData_count b _⟩
    · have hzero : m.escapeCount = 0 := by omega
      rw [if_neg hpos]
      refine ⟨?_, (sendTcpData_count b m).trans hzero⟩
      rw [hzero]
      exact sent_one hclear hsocket b

theorem escapeByte_sent (hclear : Clear m) (hsocket : m.socket = some c) (hwrites : ∀ i, i < 4 → m.net.writes i = true)
    {silence : Nat} (hsoon : silence < 1000) (b : Byte) :
    Sent c (List.replicate 3 0x2B ++ [b]) m { m.escapeByte b silence with state := m.state } ∧
      (m.escapeByte b silence).state = .online ∧ (m.escapeByte b silence).socket = some c ∧
      (m.escapeByte b silence).escapeCount = 0 := by
  have hsent := ((Sent.nil hclear hsocket).pluses 3).snoc b
  obtain ⟨hsocket', hwrites'⟩ := sendPluses_ok 3 hsocket (fun i hi => hwrites i (by omega))
  have hend := (sendTcpData_ok hsocket' (by rw [hwrites']; exact hwrites 3 (by omega)) b).1
  unfold escapeByte
  rw [if_pos hsoon]
  refine ⟨?_, rfl, hend, rfl⟩
  refine ⟨hsent.calls, hsent.clock, hsent.stopped, hsent.pending, hsent.clear, hsent.others, ?_⟩
  rcases hsent.fate with ⟨hsaid, _, hsocket''⟩ | ⟨_, _, hnone⟩
  · exact .inl ⟨hsaid, rfl, hsocket''⟩
  · rw [hend] at hnone
    cases hnone

/-! ### Commands -/

structure Commanded (m t : Modem) : Prop where
  count : t.escapeCount = m.escapeCount
  clock : t.clock = m.clock
  clear : Clear m → Clear t
  said : Clear m → ∀ i, t.said i = m.said i
  calls : m.net.calls ≤ t.net.calls
  fate : t.state = .command ∧ (t.socket = m.socket ∨ t.socket = none) ∨
    t.state = .online ∧ ∃ c, t.socket = some c ∧ m.net.calls ≤ c ∧ c < t.net.calls

theorem Quiet.commanded (h : Quiet m t) (hstate : m.state = .command) : Commanded m t :=
  ⟨h.count, h.clock, h.clear, h.said, Nat.le_of_eq h.calls.symm, .inl ⟨h.state.trans hstate, .inl h.socket⟩⟩

theorem Hung.commanded (h : Hung m t) : Commanded m t :=
  ⟨h.count, h.clock, h.clear, h.said, Nat.le_of_eq h.calls.symm, .inl ⟨h.state, .inr h.socket⟩⟩

theorem Commanded.trans (h : Commanded m t) (hstate : t.state = .command) (h' : Commanded t r) : Commanded m r := by
  refine ⟨h'.count.trans h.count, h'.clock.trans h.clock, fun hc => h'.clear (h.clear hc),
    fun hc i => (h'.said (h.clear hc) i).trans (h.said hc i), Nat.le_trans h.calls h'.calls, ?_⟩
  rcases h.fate with ⟨_, hsocket⟩ | ⟨honline, _⟩
  · rcases h'.fate with ⟨hstate', hsocket'⟩ | ⟨honline', c, hsocket', hlow, hhigh⟩
    · refine .inl ⟨hstate', ?_⟩
      rcases hsocket' with hsocket' | hsocket'
      · rw [hsocket']
        exact hsocket
      · exact .inr hsocket'
    · exact .inr ⟨honline', c, hsocket', Nat.le_trans h.calls hlow, hhigh⟩
  · rw [hstate] at honline
    cases honline

theorem Commanded.quiet (h : Commanded m t) (h' : Quiet t r) : Commanded m r := by
  refine ⟨h'.count.trans h.count, h'.clock.trans h.clock, fun hc => h'.clear (h.clear hc),
    fun hc i => (h'.said (h.clear hc) i).trans (h.said hc i), by rw [h'.calls]; exact h.calls, ?_⟩
  rw [h'.state, h'.socket, h'.calls]
  exact h.fate

theorem dialAborted_same (msgs : List SerialMessage) (m : Modem) :
    ∃ p, (m.dialAborted msgs).2 = { m with shutdownPending := p } := by
  induction msgs with
  | nil => exact ⟨m.shutdownPending, rfl⟩
  | cons msg msgs ih =>
    unfold dialAborted
    split
    · exact ⟨true, rfl⟩
    · exact ⟨m.shutdownPending, rfl⟩
    · exact ih

theorem dialWait_same (n : Nat) (slices : Nat → Slice) (m : Modem) :
    ∃ p, (m.dialWait n slices).2 = { m with shutdownPending := p } := by
  induction n generalizing slices m with
  | zero => exact ⟨m.shutdownPending, rfl⟩
  | succ n ih =>
    obtain ⟨p, hp⟩ := dialAborted_same (slices 0).messages m
    unfold dialWait
    dsimp only
    split
    · exact ⟨m.shutdownPending, rfl⟩
    split
    · exact ⟨p, hp⟩
    · obtain ⟨q, hq⟩ := ih (fun i => slices (i + 1)) (m.dialAborted (slices 0).messages).2
      exact ⟨q, by rw [hq, hp]⟩

theorem commanded_connect (slices : Nat → Slice) (hstate : m.state = .command) :
    Commanded m (m.createClient.connect slices) := by
  obtain ⟨p, hp⟩ := dialWait_same 600 slices m.createClient
  unfold connect
  dsimp only
  rw [hp]
  split
  · refine Commanded.quiet ?_ (quiet_sendResponse _ _)
    exact ⟨rfl, rfl, id, fun _ _ => rfl, Nat.le_succ _, .inl ⟨hstate, .inr rfl⟩⟩
  · refine Commanded.quiet (Commanded.quiet (Commanded.quiet ?_ (quiet_sendTelnetResponse (by decide) (by decide) 0 _))
      (quiet_sendTelnetResponse (by decide) (by decide) 0 _)) (quiet_sendResponse _ _)
    exact ⟨rfl, rfl, id, fun _ _ => rfl, Nat.le_succ _, .inr ⟨rfl, _, rfl, Nat.le_refl _, Nat.lt_succ_self _⟩⟩

theorem commanded_dial (address : List Byte) (hstate : m.state = .command) : Commanded m (m.dial address) := by
  have hfree : Commanded m (if m.socket ≠ none then m.hangup else m) ∧
      (if m.socket ≠ none then m.hangup else m).state = .command := by
    split
    · exact ⟨(hung_hangup m).commanded, rfl⟩
    · exact ⟨(Quiet.refl m).commanded hstate, hstate⟩
  unfold dial
  dsimp only
  generalize (if m.socket ≠ none then m.hangup else m) = t at hfree ⊢
  refine hfree.1.trans hfree.2 ?_
  have hnext : Commanded t t.nextDial :=
    ⟨rfl, rfl, id, fun _ _ => rfl, Nat.le_refl _, .inl ⟨hfree.2, .inl rfl⟩⟩
  split
  · exact (quiet_sendResponse _ t).commanded hfree.2
  split
  · exact hnext.quiet (quiet_sendResponse _ _)
  obtain ⟨p, hp⟩ := dialWait_same 200 (t.net.dials 0).resolving t.nextDial
  rw [hp]
  have hwaited : Commanded t { t.nextDial with shutdownPending := p } :=
    ⟨rfl, rfl, id, fun _ _ => rfl, Nat.le_refl _, .inl ⟨hfree.2, .inl rfl⟩⟩
  split
  · exact hwaited.quiet (quiet_sendResponse _ _)
  split
  · exact hwaited.quiet (quiet_sendResponse _ _)
  · exact hwaited.trans hfree.2 (commanded_connect (t.net.dials 0).connecting hfree.2)

theorem commanded_perform (cmd : List Byte) (hstate : m.state = .command) : Commanded m (m.perform cmd) := by
  have hsay : ∀ text, Commanded m (m.sendResponse text) := fun text => (quiet_sendResponse text m).commanded hstate
  have hecho : ∀ echo text, Commanded m ({ m with commandEcho := echo }.sendResponse text) := by
    intro echo text
    refine Quiet.commanded (Quiet.trans (t := { m with commandEcho := echo }) ?_ (quiet_sendResponse text _)) hstate
    exact ⟨rfl, rfl, rfl, rfl, rfl, rfl, rfl, rfl, id, fun _ _ => rfl⟩
  unfold perform
  split
  · exact hsay _
  split
  · split
    · exact hsay _
    · exact commanded_dial _ hstate
  split
  · exact ((hung_hangup m).quiet (quiet_sendResponse _ _)).commanded
  split
  · split
    · exact hecho _ _
    split
    · exact hecho _ _
    · exact hsay _
  split <;> exact hsay _

theorem commanded_processCommand (hstate : m.state = .command) : Commanded m m.processCommand := by
  unfold processCommand
  exact (commanded_perform _ hstate).quiet ⟨rfl, rfl, rfl, rfl, rfl, rfl, rfl, rfl, id, fun _ _ => rfl⟩

theorem commanded_commandByte (b : Byte) (hstate : m.state = .command) : Commanded m (m.commandByte b) := by
  have hecho : Quiet m (m.echo b) := by
    unfold echo
    split
    · exact ⟨rfl, rfl, rfl, rfl, rfl, rfl, rfl, rfl, id, fun _ _ => rfl⟩
    · exact .refl m
  unfold commandByte
  dsimp only
  generalize m.echo b = t at hecho ⊢
  have hcommand := hecho.state.trans hstate
  refine (hecho.commanded hstate).trans hcommand ?_
  have hself := (Quiet.refl t).commanded hcommand
  split
  · split
    · exact commanded_processCommand hcommand
    · exact hself
  split
  · exact hself.quiet ⟨rfl, rfl, rfl, rfl, rfl, rfl, rfl, rfl, id, fun _ _ => rfl⟩
  split
  · exact hself.quiet ⟨rfl, rfl, rfl, rfl, rfl, rfl, rfl, rfl, id, fun _ _ => rfl⟩
  · exact hself

end

/-! ## What is held -/

section

variable {typed : List (Nat × Byte)} {said bs done rest : List Byte} {n wait : Nat} {b : Byte} {held : List (Nat × Byte)}

theorem opening_snoc : Opening (held ++ [(wait, b)]) ↔
    Opening held ∧ b = 0x2B ∧ (held = [] → 1000 ≤ wait) ∧ (held ≠ [] → wait < 500 ∧ held.length ≤ 2) := by
  cases held with
  | nil =>
    constructor
    · rintro ⟨hwait, hb, _⟩
      exact ⟨trivial, hb, fun _ => hwait, fun h => absurd rfl h⟩
    · rintro ⟨_, hb, hwait, _⟩
      exact ⟨hwait rfl, hb, Nat.zero_le _, fun q hq => absurd hq List.not_mem_nil⟩
  | cons p ps =>
    constructor
    · rintro ⟨hfirst, hplus, hlen, hall⟩
      have hb := hall (wait, b) (List.mem_append_right ps List.mem_cons_self)
      have hlen : (ps ++ [(wait, b)]).length ≤ 2 := hlen
      rw [List.length_append, List.length_singleton] at hlen
      exact ⟨⟨hfirst, hplus, by omega, fun q hq => hall q (List.mem_append_left _ hq)⟩, hb.2, fun h => absurd h (List.cons_ne_nil p ps),
        fun _ => ⟨hb.1, hlen⟩⟩
    · rintro ⟨⟨hfirst, hplus, _, hall⟩, hb, _, hnext⟩
      obtain ⟨hwait, hlen⟩ := hnext (List.cons_ne_nil p ps)
      refine ⟨hfirst, hplus, ?_, fun q hq => ?_⟩
      · show (ps ++ [(wait, b)]).length ≤ 2
        rw [List.length_append, List.length_singleton]
        exact hlen
      · rcases List.mem_append.mp hq with hq | hq
        · exact hall q hq
        · rw [List.mem_singleton.mp hq]
          exact ⟨hwait, hb⟩

theorem Opening.bytes (h : Opening held) : held.map (·.2) = List.replicate held.length 0x2B := by
  cases held with
  | nil => rfl
  | cons p ps =>
    obtain ⟨_, hplus, _, hall⟩ := h
    refine List.eq_replicate_iff.mpr ⟨List.length_map _, fun b hb => ?_⟩
    obtain ⟨q, hq, hqb⟩ := List.mem_map.mp hb
    rw [← hqb]
    rcases List.mem_cons.mp hq with rfl | hq
    · exact hplus
    · exact (hall q hq).2

structure Holding (typed : List (Nat × Byte)) (said : List Byte) (n : Nat) : Prop where
  written : ∃ held, Opening held ∧ held.length = n ∧ Written typed said held
  only : ∀ sent held, typed = sent ++ held → held ≠ [] → Opening held → held.length = n

theorem holding_nil : Holding [] [] 0 := by
  refine ⟨⟨[], trivial, rfl, [], rfl, rfl⟩, fun sent held htyped hne _ => ?_⟩
  exact absurd (List.append_eq_nil_iff.mp htyped.symm).2 hne

theorem snoc_split {sent : List (Nat × Byte)} (htyped : typed ++ [(wait, b)] = sent ++ held) (hne : held ≠ []) :
    ∃ front, held = front ++ [(wait, b)] ∧ typed = sent ++ front := by
  obtain ⟨front, last, hheld⟩ := (List.eq_nil_or_concat held).resolve_left hne
  rw [List.concat_eq_append] at hheld
  rw [hheld, ← List.append_assoc] at htyped
  obtain ⟨hfront, hlast⟩ := List.append_inj' htyped rfl
  cases hlast
  exact ⟨front, hheld, hfront⟩

theorem Holding.hold (h : Holding typed said n) (hn : n < 3) (hb : b = 0x2B) (hfirst : n = 0 → 1000 ≤ wait)
    (hnext : 0 < n → wait < 500) : Holding (typed ++ [(wait, b)]) said (n + 1) := by
  obtain ⟨held, hopening, hlen, sent, htyped, hsaid⟩ := h.written
  have hempty : held = [] ↔ n = 0 := by rw [← hlen, List.length_eq_zero_iff]
  refine ⟨⟨held ++ [(wait, b)], ?_, ?_, sent, ?_, hsaid⟩, fun sent' held' htyped' hne hopening' => ?_⟩
  · refine opening_snoc.mpr ⟨hopening, hb, fun hnil => hfirst (hempty.mp hnil), fun hne => ?_⟩
    have hpos : n ≠ 0 := fun hzero => hne (hempty.mpr hzero)
    exact ⟨hnext (by omega), by omega⟩
  · rw [List.length_append, List.length_singleton, hlen]
  · rw [htyped, List.append_assoc]
  · obtain ⟨front, rfl, hfront⟩ := snoc_split htyped' hne
    obtain ⟨hopen, _, hnil, hcons⟩ := opening_snoc.mp hopening'
    rw [List.length_append, List.length_singleton]
    by_cases hempty' : front = []
    · have hlong := hnil hempty'
      have hzero : n = 0 := by
        rcases Nat.eq_zero_or_pos n with hzero | hpos
        · exact hzero
        · have hquick := hnext hpos
          omega
      rw [hempty', hzero, List.length_nil]
    · rw [h.only sent' front hfront hempty' hopen]

theorem Holding.sent (h : Holding typed said n) (hb : b = 0x2B → wait < 1000 ∧ (0 < n → 500 ≤ wait ∨ 3 ≤ n)) :
    Holding (typed ++ [(wait, b)]) (said ++ (List.replicate n 0x2B ++ [b])) 0 := by
  obtain ⟨held, hopening, hlen, sent, htyped, hsaid⟩ := h.written
  refine ⟨⟨[], trivial, rfl, sent ++ (held ++ [(wait, b)]), ?_, ?_⟩, fun sent' held' htyped' hne hopening' => ?_⟩
  · rw [List.append_nil, htyped, List.append_assoc]
  · rw [hsaid, List.map_append, List.map_append, hopening.bytes, hlen]
    rfl
  · obtain ⟨front, rfl, hfront⟩ := snoc_split htyped' hne
    obtain ⟨hopen, hplus, hnil, hcons⟩ := opening_snoc.mp hopening'
    obtain ⟨hshort, hpos⟩ := hb hplus
    by_cases hempty : front = []
    · have hlong := hnil hempty
      omega
    · obtain ⟨hquick, htwo⟩ := hcons hempty
      have hfrontlen := h.only sent' front hfront hempty hopen
      have hn : 0 < n := by
        rw [← hfrontlen]
        exact List.length_pos_iff.mpr hempty
      rcases hpos hn with hwait | hwait <;> omega

theorem Holding.part (h : Holding typed said n) (hbs : List.replicate n 0x2B ++ [b] = done ++ rest) :
    ∃ left, Written (typed ++ [(wait, b)]) (said ++ done) left := by
  obtain ⟨held, hopening, hlen, sent, htyped, hsaid⟩ := h.written
  refine ⟨(held ++ [(wait, b)]).drop done.length, sent ++ (held ++ [(wait, b)]).take done.length, ?_, ?_⟩
  · rw [htyped, List.append_assoc, List.append_assoc, List.take_append_drop]
  · have hbytes : (held ++ [(wait, b)]).map (·.2) = done ++ rest := by
      rw [← hbs, List.map_append, hopening.bytes, hlen]
      rfl
    rw [hsaid, List.map_append, List.map_take, hbytes, List.take_left]

end

/-! ## Steps -/

structure Inv (m : Modem) (g : Typed) : Prop where
  clear : Clear m
  fresh : ∀ c, m.net.calls ≤ c → g.typed c = [] ∧ m.said c = [] ∧ g.left c = none
  known : ∀ c, m.socket = some c → c < m.net.calls
  idle : m.state = .command → m.escapeCount = 0
  pending : m.stopped = false → m.shutdownPending = false
  online : m.state = .online → m.escapeCount < 3
  escape : m.state = .escape → m.escapeCount = 3
  connected : m.state ≠ .command → m.socket ≠ none
  current : ∀ c, m.socket = some c → m.state ≠ .command →
    g.left c = none ∧ Holding (g.typed c) (m.said c) m.escapeCount
  parked : ∀ c, m.socket = some c → m.state = .command → g.left c ≠ none
  left : ∀ c n, g.left c = some n → 1000 ≤ n ∧
    ∃ held, Opening held ∧ held.length = 3 ∧ Written (g.typed c) (m.said c) held
  ended : ∀ c, m.socket ≠ some c → g.left c = none →
    ∃ rest, (rest ≠ [] → g.lost c = true) ∧ Written (g.typed c) (m.said c) rest

section

variable {m t : Modem} {g : Typed} {e : Nat × Event} {c : Nat}

structure Same (g g' : Typed) : Prop where
  typed : g'.typed = g.typed
  left : g'.left = g.left
  lost : g'.lost = g.lost

theorem record_same (hnone : accepted e m = none)
    (hleft : ∀ c, m.socket = some c → t.socket = some c → m.state ≠ .command → t.state ≠ .command) :
    Same g (record e m t g) := by
  refine ⟨funext fun c => ?_, funext fun c => ?_, funext fun c => ?_⟩
  · show (if _ then _ else _) = _
    rw [hnone]
    split
    · exact List.append_nil _
    · rfl
  · show (if _ then _ else _) = _
    exact if_neg (fun h => hleft c h.1 h.2.1 h.2.2.1 h.2.2.2)
  · show (if _ then _ else _) = _
    exact if_neg (fun h => h.2.2 hnone)

theorem Inv.quiet {g' : Typed} (h : Inv m g) (hq : Quiet m t) (hg : Same g g') : Inv t g' := by
  have hsaid := hq.said h.clear
  obtain ⟨typed, left, lost⟩ := g'
  obtain ⟨rfl, rfl, rfl⟩ := hg
  refine ⟨hq.clear h.clear, ?_, ?_, ?_, ?_, ?_, ?_, ?_, ?_, ?_, ?_, ?_⟩
  · intro c hc
    rw [hsaid]
    exact h.fresh c (by rwa [hq.calls] at hc)
  · rw [hq.socket, hq.calls]
    exact h.known
  · rw [hq.state, hq.count]
    exact h.idle
  · rw [hq.stopped, hq.pending]
    exact h.pending
  · rw [hq.state, hq.count]
    exact h.online
  · rw [hq.state, hq.count]
    exact h.escape
  · rw [hq.state, hq.socket]
    exact h.connected
  · intro c
    rw [hq.state, hq.socket, hq.count, hsaid]
    exact h.current c
  · rw [hq.state, hq.socket]
    exact h.parked
  · intro c
    rw [hsaid]
    exact h.left c
  · intro c
    rw [hq.socket, hsaid]
    exact h.ended c

theorem Inv.hung {g' : Typed} (h : Inv m g) (hh : Hung m t) (hcount : m.escapeCount = 0)
    (hpending : t.stopped = false → m.shutdownPending = false) (hg : Same g g') : Inv t g' := by
  have hsaid := hh.said h.clear
  obtain ⟨typed, left, lost⟩ := g'
  obtain ⟨rfl, rfl, rfl⟩ := hg
  have hnone : ∀ c, t.socket ≠ some c := fun c => by
    rw [hh.socket]
    exact (Option.some_ne_none c).symm
  refine ⟨hh.clear h.clear, fun c hc => ?_, fun c hc => absurd hc (hnone c), fun _ => hh.count.trans hcount,
    fun hs => hh.pending.trans (hpending hs), fun _ => ?_, fun hs => ?_, fun hs => absurd hh.state hs,
    fun c hc => absurd hc (hnone c), fun c hc => absurd hc (hnone c), fun c n hn => ?_, fun c _ hleft => ?_⟩
  · rw [hsaid]
    exact h.fresh c (by rwa [hh.calls] at hc)
  · rw [hh.count, hcount]
    decide
  · rw [hh.state] at hs
    cases hs
  · rw [hsaid]
    exact h.left c n hn
  · rw [hsaid]
    by_cases hsocket : m.socket = some c
    · by_cases hstate : m.state = .command
      · exact absurd hleft (h.parked c hsocket hstate)
      · obtain ⟨held, _, hlen, hwritten⟩ := (h.current c hsocket hstate).2.written
        rw [hcount, List.length_eq_zero_iff] at hlen
        rw [hlen] at hwritten
        exact ⟨[], fun hne => absurd rfl hne, hwritten⟩
    · exact h.ended c hsocket hleft

theorem Inv.commanded {g' : Typed} (h : Inv m g) (hstate : m.state = .command) (hc : Commanded m t)
    (hpending : t.stopped = false → t.shutdownPending = false) (hg : Same g g') : Inv t g' := by
  have hsaid := hc.said h.clear
  have hidle := hc.count.trans (h.idle hstate)
  obtain ⟨typed, left, lost⟩ := g'
  obtain ⟨rfl, rfl, rfl⟩ := hg
  have hfresh : ∀ c, t.net.calls ≤ c → g.typed c = [] ∧ t.said c = [] ∧ g.left c = none := by
    intro c hle
    rw [hsaid]
    exact h.fresh c (Nat.le_trans hc.calls hle)
  have hleft : ∀ c n, g.left c = some n → 1000 ≤ n ∧
      ∃ held, Opening held ∧ held.length = 3 ∧ Written (g.typed c) (t.said c) held := by
    intro c
    rw [hsaid]
    exact h.left c
  have hended : ∀ c, g.left c = none → ∃ rest, (rest ≠ [] → g.lost c = true) ∧ Written (g.typed c) (t.said c) rest := by
    intro c hnone
    rw [hsaid]
    exact h.ended c (fun hsocket => h.parked c hsocket hstate hnone) hnone
  rcases hc.fate with ⟨hstate', hsocket⟩ | ⟨honline, c, hsocket, hlow, hhigh⟩
  · refine ⟨hc.clear h.clear, hfresh, fun c hc' => ?_, fun _ => hidle, hpending, fun _ => ?_, fun hs => ?_,
      fun hs => absurd hstate' hs, fun c _ hs => absurd hstate' hs, fun c hc' _ => ?_, hleft, fun c _ => hended c⟩
    · rcases hsocket with hsocket | hsocket
      · exact Nat.lt_of_lt_of_le (h.known c (hsocket ▸ hc')) hc.calls
      · rw [hsocket] at hc'
        cases hc'
    · rw [hidle]
      decide
    · rw [hstate'] at hs
      cases hs
    · rcases hsocket with hsocket | hsocket
      · exact h.parked c (hsocket ▸ hc') hstate
      · rw [hsocket] at hc'
        cases hc'
  · have hnotcommand : t.state ≠ .command := by
      rw [honline]
      decide
    obtain ⟨htyped, _, hnone⟩ := h.fresh c hlow
    refine ⟨hc.clear h.clear, hfresh, fun c' hc' => ?_, fun _ => hidle, hpending, fun _ => ?_, fun hs => ?_, fun _ => ?_,
      fun c' hc' _ => ?_, fun c' _ hs => absurd hs hnotcommand, hleft, fun c' _ => hended c'⟩
    · rw [hsocket] at hc'
      exact Option.some.inj hc' ▸ hhigh
    · rw [hidle]
      decide
    · rw [honline] at hs
      cases hs
    · rw [hsocket]
      exact Option.some_ne_none c
    · rw [hsocket] at hc'
      cases Option.some.inj hc'
      refine ⟨hnone, ?_⟩
      rw [htyped, hsaid, (h.fresh c hlow).2.1, hidle]
      exact holding_nil

structure Typing (c : Nat) (p : Nat × Byte) (g g' : Typed) : Prop where
  own : g'.typed c = g.typed c ++ [p]
  others : ∀ i, i ≠ c → g'.typed i = g.typed i
  left : g'.left = g.left
  lost : ∀ i, i ≠ c → g'.lost i = g.lost i

variable {p : Nat × Byte} {g' : Typed}

theorem Inv.typing (h : Inv m g) (hsocket : m.socket = some c) (hstate : m.state ≠ .command) (hg : Typing c p g g')
    (hclear : Clear t) (hcalls : t.net.calls = m.net.calls) (hothers : ∀ i, i ≠ c → t.said i = m.said i)
    (hsocket' : t.socket = some c ∨ t.socket = none) (hpending : t.stopped = false → t.shutdownPending = false)
    (hidle : t.state = .command → t.escapeCount = 0) (honline : t.state = .online → t.escapeCount < 3)
    (hescape : t.state = .escape → t.escapeCount = 3) (hstate' : t.socket = some c ↔ t.state ≠ .command)
    (hholding : t.socket = some c → Holding (g'.typed c) (t.said c) t.escapeCount)
    (hended : t.socket = none → ∃ rest, (rest ≠ [] → g'.lost c = true) ∧ Written (g'.typed c) (t.said c) rest) : Inv t g' := by
  obtain ⟨hnone, _⟩ := h.current c hsocket hstate
  have hbound := h.known c hsocket
  have hown : ∀ i, t.socket = some i → i = c := by
    intro i hi
    rcases hsocket' with hs | hs <;> rw [hs] at hi <;> cases hi
    rfl
  refine ⟨hclear, fun i hi => ?_, fun i hi => ?_, hidle, hpending, honline, hescape, fun hs => ?_, fun i hi hs => ?_,
    fun i hi hs => ?_, fun i n hn => ?_, fun i hi hleft => ?_⟩
  · have hne : i ≠ c := by omega
    rw [hg.others i hne, hothers i hne, hg.left]
    exact h.fresh i (by omega)
  · rw [hown i hi, hcalls]
    exact hbound
  · rw [hstate'.mpr hs]
    exact Option.some_ne_none c
  · cases hown i hi
    rw [hg.left]
    exact ⟨hnone, hholding hi⟩
  · cases hown i hi
    exact absurd hs (hstate'.mp hi)
  · rw [hg.left] at hn
    have hne : i ≠ c := by
      intro heq
      rw [heq, hnone] at hn
      cases hn
    rw [hg.others i hne, hothers i hne]
    exact h.left i n hn
  · rw [hg.left] at hleft
    by_cases hne : i = c
    · cases hne
      exact hended (hsocket'.resolve_left hi)
    · rw [hg.others i hne, hothers i hne, hg.lost i hne]
      exact h.ended i (fun hs => hne (Option.some.inj (hs.symm.trans hsocket))) hleft

theorem Inv.onlineByte (h : Inv m g) (hstate : m.state = .online) (hsocket : m.socket = some c) {b : Byte} {silence : Nat}
    (hlong : 0 < m.escapeCount → b = 0x2B → silence < 1000) (hg : Typing c (silence, b) g g')
    (hlost : (m.onlineByte b silence).socket ≠ some c → g'.lost c = true) (n : Nat) :
    Inv { m.onlineByte b silence with lastCharTime := n } g' := by
  have hnot : m.state ≠ .command := by
    rw [hstate]
    decide
  have hcount := h.online hstate
  have hholding := (h.current c hsocket hnot).2
  rcases onlineByte_cases h.clear hsocket hcount b silence with ⟨hb, hfirst, hnext, heq⟩ | ⟨hb, hsent, hzero⟩
  · rw [heq]
    have hdata : (if m.escapeCount + 1 = 3 then ModemState.escape else m.state) ≠ .command := by
      split
      · decide
      · exact hnot
    refine h.typing hsocket hnot hg h.clear rfl (fun _ _ => rfl) (.inl hsocket) h.pending (fun hs => absurd hs hdata)
      (fun hs => ?_) (fun hs => ?_) ⟨fun _ => hdata, fun _ => hsocket⟩ (fun _ => ?_) (fun hs => ?_)
    · by_cases hthree : m.escapeCount + 1 = 3
      · rw [if_pos hthree] at hs
        cases hs
      · exact Nat.lt_of_le_of_ne hcount hthree
    · by_cases hthree : m.escapeCount + 1 = 3
      · exact hthree
      · rw [if_neg hthree, hstate] at hs
        cases hs
    · rw [hg.own]
      exact hholding.hold hcount hb hfirst hnext
    · rw [hsocket] at hs
      cases hs
  · have hpending : (m.onlineByte b silence).stopped = false → (m.onlineByte b silence).shutdownPending = false := by
      rw [hsent.stopped, hsent.pending]
      exact h.pending
    have hcount' : (m.onlineByte b silence).state = .online → (m.onlineByte b silence).escapeCount < 3 := by
      intro _
      rw [hzero]
      decide
    rcases hsent.fate with ⟨hsaid, hstate', hsocket'⟩ | ⟨⟨done, rest, hbs, hsaid⟩, hstate', hsocket'⟩
    · have honline := hstate'.trans hstate
      refine h.typing hsocket hnot hg hsent.clear hsent.calls hsent.others (.inl hsocket') hpending (fun _ => hzero) hcount'
        (fun hs => ?_) ⟨fun _ => by rw [honline]; decide, fun _ => hsocket'⟩ (fun _ => ?_) (fun hs => ?_)
      · rw [honline] at hs
        cases hs
      · have hsaid' : Modem.said { m.onlineByte b silence with lastCharTime := n } c =
            m.said c ++ (List.replicate m.escapeCount 0x2B ++ [b]) := hsaid
        rw [hg.own, hsaid', hzero]
        refine hholding.sent (fun hplus => ?_)
        obtain ⟨hshort, hslow⟩ := hb hplus
        rcases Nat.eq_zero_or_pos m.escapeCount with hcz | hpos
        · exact ⟨hshort hcz, fun hp => by omega⟩
        · exact ⟨hlong hpos hplus, fun _ => .inl (hslow hpos)⟩
      · rw [hsocket'] at hs
        cases hs
    · refine h.typing hsocket hnot hg hsent.clear hsent.calls hsent.others (.inr hsocket') hpending (fun _ => hzero) hcount'
        (fun hs => ?_) ⟨fun hs => ?_, fun hs => absurd hstate' hs⟩ (fun hs => ?_) (fun _ => ?_)
      · rw [hstate'] at hs
        cases hs
      · rw [hsocket'] at hs
        cases hs
      · rw [hsocket'] at hs
        cases hs
      · obtain ⟨left, hwritten⟩ := hholding.part hbs
        refine ⟨left, fun _ => hlost (by rw [hsocket']; exact (Option.some_ne_none c).symm), ?_⟩
        have hsaid' : Modem.said { m.onlineByte b silence with lastCharTime := n } c = m.said c ++ done := hsaid
        rw [hg.own, hsaid']
        exact hwritten

theorem Inv.escapeByte (h : Inv m g) (hstate : m.state = .escape) (hsocket : m.socket = some c) {b : Byte} {silence : Nat}
    (hsoon : silence < 1000) (hwrites : ∀ i, i < 4 → m.net.writes i = true) (hg : Typing c (silence, b) g g') (n : Nat) :
    Inv { m.escapeByte b silence with lastCharTime := n } g' := by
  have hnot : m.state ≠ .command := by
    rw [hstate]
    decide
  obtain ⟨hsent, honline, hsocket', hzero⟩ := escapeByte_sent h.clear hsocket hwrites hsoon b
  have hholding := (h.current c hsocket hnot).2
  rw [h.escape hstate] at hholding
  have hnone : (m.escapeByte b silence).socket ≠ none := by
    rw [hsocket']
    exact Option.some_ne_none c
  refine h.typing hsocket hnot hg hsent.clear hsent.calls hsent.others (.inl hsocket') (fun hs => ?_) (fun _ => hzero)
    (fun _ => ?_) (fun hs => ?_) ⟨fun _ => by rw [honline]; decide, fun _ => hsocket'⟩ (fun _ => ?_) (fun hs => absurd hs hnone)
  · exact hsent.pending.trans (h.pending (hsent.stopped.symm.trans hs))
  · rw [hzero]
    decide
  · rw [honline] at hs
    cases hs
  · rcases hsent.fate with ⟨hsaid, _, _⟩ | ⟨_, _, hs⟩
    · have hsaid' : Modem.said { m.escapeByte b silence with lastCharTime := n } c = m.said c ++ (List.replicate 3 0x2B ++ [b]) :=
        hsaid
      rw [hg.own, hsaid', hzero]
      exact hholding.sent (fun _ => ⟨hsoon, fun _ => .inr (Nat.le_refl 3)⟩)
    · exact absurd hs hnone

theorem Inv.settle (h : Inv m g) (hstate : m.state = .escape) (hlong : 1000 ≤ m.clock - m.lastCharTime)
    (htyped : g'.typed = g.typed) (hlost : g'.lost = g.lost)
    (hleft : ∀ c, g'.left c = if m.socket = some c then some (m.clock - m.lastCharTime) else g.left c) :
    Inv m.handleEscapeSequence g' := by
  have hnot : m.state ≠ .command := by
    rw [hstate]
    decide
  have hown : ∀ c, m.socket = some c → ∃ held, Opening held ∧ held.length = 3 ∧ Written (g.typed c) (m.said c) held := by
    intro c hc
    obtain ⟨held, hopening, hlen, hwritten⟩ := (h.current c hc hnot).2.written
    exact ⟨held, hopening, hlen.trans (h.escape hstate), hwritten⟩
  refine ⟨h.clear, fun c hc => ?_, h.known, fun _ => rfl, h.pending, nofun, nofun, fun hs => absurd rfl hs,
    fun c _ hs => absurd rfl hs, fun c hc _ => ?_, fun c n hn => ?_, fun c hc hnone => ?_⟩
  · have hne : m.socket ≠ some c := by
      intro hs
      have hlt := h.known c hs
      exact absurd hlt (Nat.not_lt.mpr hc)
    rw [htyped, hleft, if_neg hne]
    exact h.fresh c hc
  · have hc : m.socket = some c := hc
    rw [hleft, if_pos hc]
    exact Option.some_ne_none _
  · rw [hleft] at hn
    rw [htyped]
    by_cases hs : m.socket = some c
    · rw [if_pos hs] at hn
      cases hn
      exact ⟨hlong, hown c hs⟩
    · rw [if_neg hs] at hn
      exact h.left c n hn
  · have hc : m.socket ≠ some c := hc
    rw [hleft, if_neg hc] at hnone
    rw [htyped, hlost]
    exact h.ended c hc hnone

/-! ### One step -/

theorem Inv.tick (h : Inv m g) (wait : Nat) : Inv (m.tick wait) g :=
  ⟨h.clear, h.fresh, h.known, h.idle, h.pending, h.online, h.escape, h.connected, h.current, h.parked, h.left, h.ended⟩

theorem reportLines_tick (wait : Nat) (m : Modem) : (m.tick wait).reportLines = m.reportLines.tick wait := by
  unfold reportLines Modem.tick
  generalize m.queue.trySend _ = r
  dsimp only
  split
  · rfl
  · split <;> rfl

theorem onlineByte_kept (h : Inv m g) (hstate : m.state = .online) (hsocket : m.socket = some c) (b : Byte) (silence : Nat) :
    (m.onlineByte b silence).shutdownPending = m.shutdownPending ∧
      ((m.onlineByte b silence).socket = some c → (m.onlineByte b silence).state ≠ .command) := by
  rcases onlineByte_cases h.clear hsocket (h.online hstate) b silence with ⟨_, _, _, heq⟩ | ⟨_, hsent, _⟩
  · rw [heq]
    refine ⟨rfl, fun _ => ?_⟩
    show (if _ then _ else _) ≠ _
    split
    · decide
    · rw [hstate]
      decide
  · refine ⟨hsent.pending, fun hs => ?_⟩
    rcases hsent.fate with ⟨_, hstate', _⟩ | ⟨_, _, hsocket'⟩
    · rw [hstate', hstate]
      decide
    · rw [hsocket'] at hs
      cases hs

/-- What `message` does with a message that is no shutdown. -/
def handle (msg : SerialMessage) (m : Modem) : Modem :=
  match msg.type with
  | .data => m.dataByte (BitVec.ofNat 8 msg.data)
  | .modemCtl => m.modemCtl msg.data
  | _ => m

theorem message_handled {msg : SerialMessage} (htype : msg.type ≠ .shutdown) (m : Modem) :
    m.message msg = if (m.handle msg).shutdownPending then { (m.handle msg).hangup with stopped := true } else m.handle msg := by
  obtain ⟨type, data⟩ := msg
  cases type
  case shutdown => exact absurd rfl htype
  all_goals rfl

theorem message_plain {msg : SerialMessage} (htype : msg.type ≠ .shutdown) (hpending : (m.handle msg).shutdownPending = false) :
    m.message msg = m.handle msg := by
  rw [message_handled htype, hpending]
  rfl

theorem inv_poll (h : Inv m g) (hsuits : m.reportLines.closes = true → m.escapeCount = 0)
    (hnot : m.stopped = false) (wait : Nat) :
    Inv (if (m.tick wait).reportLines.state = .online then (m.tick wait).reportLines.checkTcpData
      else (m.tick wait).reportLines) g := by
  have hself : Same g g := ⟨rfl, rfl, rfl⟩
  have hreport := h.quiet (quiet_reportLines m) hself
  rw [reportLines_tick]
  split
  · next honline =>
    rcases checkTcpData_cases (m.reportLines.tick wait) with hq | ⟨hh, hsocket, hroom, hread⟩
    · exact (hreport.tick wait).quiet hq hself
    · have hcloses : m.reportLines.closes = true := by
        unfold closes due
        rw [Bool.and_eq_true, Bool.and_eq_true, Bool.and_eq_true]
        exact ⟨⟨⟨beq_iff_eq.mpr honline, Option.isSome_iff_ne_none.mpr hsocket⟩, decide_eq_true hroom⟩,
          Option.isNone_iff_eq_none.mpr hread⟩
      have hq := quiet_reportLines m
      exact (hreport.tick wait).hung hh (hq.count.trans (hsuits hcloses)) (fun _ => hq.pending.trans (h.pending hnot)) hself
  · exact hreport.tick wait

theorem inv_modemCtl (h : Inv m g) {data : Nat} (hsuits : m.drops data = true → m.escapeCount = 0) (hnot : m.stopped = false) :
    Inv (m.modemCtl data) g := by
  have hself : Same g g := ⟨rfl, rfl, rfl⟩
  have hlines : ∀ t : Modem, Quiet t { t with lastDtr := decide (data % 2 = 1), dtrSeen := true } :=
    fun _ => ⟨rfl, rfl, rfl, rfl, rfl, rfl, rfl, rfl, id, fun _ _ => rfl⟩
  unfold modemCtl
  dsimp only
  split
  · next hdrop =>
    obtain ⟨hseen, hlast, hlow, hsocket⟩ := hdrop
    have hdrops : m.drops data = true := by
      unfold drops
      rw [Bool.and_eq_true, Bool.and_eq_true, Bool.and_eq_true]
      exact ⟨⟨⟨hseen, hlast⟩, decide_eq_true hlow⟩, Option.isSome_iff_ne_none.mpr hsocket⟩
    have hhung : Hung m m.hangup.sendLost := (hung_hangup m).quiet (quiet_sendResponse _ _)
    exact (h.hung hhung (hsuits hdrops) (fun _ => h.pending hnot) hself).quiet (hlines _) hself
  · exact h.quiet (hlines m) hself

theorem record_typing (wait : Nat) {msg : SerialMessage} (hdata : msg.type = .data) (hnot : m.stopped = false)
    (hsocket : m.socket = some c) (hstate : m.state ≠ .command) (hkeeps : t.socket = some c → t.state ≠ .command) :
    Typing c (m.clock + wait - m.lastCharTime, BitVec.ofNat 8 msg.data) g (record (wait, .message msg) m t g) ∧
      (t.socket ≠ some c → (record (wait, .message msg) m t g).lost c = true) := by
  have haccepted : accepted (wait, .message msg) m = some (m.clock + wait - m.lastCharTime, BitVec.ofNat 8 msg.data) :=
    if_pos ⟨hdata, hnot, hstate⟩
  have hother : ∀ i, i ≠ c → m.socket ≠ some i := fun i hi hs => hi (Option.some.inj (hs.symm.trans hsocket))
  refine ⟨⟨?_, fun i hi => if_neg (hother i hi), funext fun i => ?_, fun i hi => if_neg (fun h => hother i hi h.1)⟩, fun hlost => ?_⟩
  · show (if _ then _ else _) = _
    rw [if_pos hsocket, haccepted]
    rfl
  · refine if_neg ?_
    rintro ⟨hs, hs', _, hcommand⟩
    by_cases hi : i = c
    · rw [hi] at hs'
      exact hkeeps hs' hcommand
    · exact hother i hi hs
  · refine if_pos ⟨hsocket, hlost, ?_⟩
    rw [haccepted]
    exact Option.some_ne_none _

theorem handle_data {msg : SerialMessage} (hdata : msg.type = .data) (m : Modem) :
    m.handle msg = m.dataByte (BitVec.ofNat 8 msg.data) := by
  unfold handle
  rw [hdata]

theorem inv_command (h : Inv m g) (hstate : m.state = .command) {msg : SerialMessage} (hdata : msg.type = .data) :
    Inv (m.message msg) g := by
  have hself : Same g g := ⟨rfl, rfl, rfl⟩
  have hcommanded := commanded_commandByte (BitVec.ofNat 8 msg.data) hstate
  have hbyte : m.handle msg = { m.commandByte (BitVec.ofNat 8 msg.data) with lastCharTime := m.clock } := by
    rw [handle_data hdata, dataByte, hstate]
  rw [message_handled (by rw [hdata]; decide), hbyte]
  split
  · refine h.commanded hstate ?_ nofun hself
    exact ⟨hcommanded.count, hcommanded.clock, hcommanded.clear, hcommanded.said, hcommanded.calls, .inl ⟨rfl, .inr rfl⟩⟩
  · next hpending =>
    refine h.commanded hstate ?_ (fun _ => Bool.eq_false_iff.mpr hpending) hself
    exact ⟨hcommanded.count, hcommanded.clock, hcommanded.clear, hcommanded.said, hcommanded.calls, hcommanded.fate⟩

theorem step_running (hnot : m.stopped = false) (wait : Nat) (msg : SerialMessage) :
    m.step (wait, .message msg) = (m.tick wait).message msg := by
  unfold Modem.step
  rw [hnot]
  rfl

theorem inv_data (h : Inv m g) (hnot : m.stopped = false) (hstate : m.state ≠ .command) {wait : Nat} {msg : SerialMessage}
    (hdata : msg.type = .data) (hsuits : Suits (wait, .message msg) m) :
    Inv (m.step (wait, .message msg)) (record (wait, .message msg) m (m.step (wait, .message msg)) g) := by
  have hsuits := hsuits hnot
  dsimp only at hsuits
  rw [hdata] at hsuits
  obtain ⟨hescape, hplus⟩ := hsuits
  obtain ⟨c, hsocket⟩ := Option.ne_none_iff_exists'.mp (h.connected hstate)
  have htick := h.tick wait
  have htype : msg.type ≠ .shutdown := by
    rw [hdata]
    decide
  rw [step_running hnot]
  cases hmode : m.state with
  | command => exact absurd hmode hstate
  | online =>
    obtain ⟨hpending, hkeeps⟩ := onlineByte_kept htick hmode hsocket (BitVec.ofNat 8 msg.data) (m.clock + wait - m.lastCharTime)
    have hbyte : (m.tick wait).handle msg =
        { (m.tick wait).onlineByte (BitVec.ofNat 8 msg.data) (m.clock + wait - m.lastCharTime) with
          lastCharTime := m.clock + wait } := by
      rw [handle_data hdata, dataByte, show (m.tick wait).state = .online from hmode]
      rfl
    rw [message_plain htype (by rw [hbyte]; exact hpending.trans (h.pending hnot)), hbyte]
    obtain ⟨htyping, hlost⟩ := record_typing (g := g) wait hdata hnot hsocket hstate (t := { (m.tick wait).onlineByte
      (BitVec.ofNat 8 msg.data) (m.clock + wait - m.lastCharTime) with lastCharTime := m.clock + wait }) hkeeps
    exact htick.onlineByte hmode hsocket (fun hpos hb => hplus hmode hpos hb) htyping hlost (m.clock + wait)
  | escape =>
    obtain ⟨hsoon, hwrites⟩ := hescape hmode
    obtain ⟨hsent, honline, _, _⟩ := escapeByte_sent htick.clear hsocket hwrites hsoon (BitVec.ofNat 8 msg.data)
    have hbyte : (m.tick wait).handle msg =
        { (m.tick wait).escapeByte (BitVec.ofNat 8 msg.data) (m.clock + wait - m.lastCharTime) with
          lastCharTime := m.clock + wait } := by
      rw [handle_data hdata, dataByte, show (m.tick wait).state = .escape from hmode]
      rfl
    rw [message_plain htype (by rw [hbyte]; exact hsent.pending.trans (h.pending hnot)), hbyte]
    obtain ⟨htyping, _⟩ := record_typing (g := g) wait hdata hnot hsocket hstate (t := { (m.tick wait).escapeByte
      (BitVec.ofNat 8 msg.data) (m.clock + wait - m.lastCharTime) with lastCharTime := m.clock + wait })
      (fun _ => by rw [honline]; decide)
    exact htick.escapeByte hmode hsocket hsoon hwrites htyping (m.clock + wait)

theorem modemCtl_kept (data : Nat) (m : Modem) :
    (m.modemCtl data).shutdownPending = m.shutdownPending ∧ ((m.modemCtl data).socket ≠ none → (m.modemCtl data).state = m.state) := by
  unfold modemCtl
  dsimp only
  split
  · exact ⟨rfl, fun hs => absurd rfl hs⟩
  · exact ⟨rfl, fun _ => rfl⟩

theorem inv_control (h : Inv m g) (hnot : m.stopped = false) {wait : Nat} {msg : SerialMessage} (hdata : msg.type ≠ .data)
    (hsuits : Suits (wait, .message msg) m) :
    Inv (m.step (wait, .message msg)) (record (wait, .message msg) m (m.step (wait, .message msg)) g) := by
  have htick := h.tick wait
  have hnone : accepted (wait, .message msg) m = none := if_neg (fun h => hdata h.1)
  have hsuits := hsuits hnot
  rw [step_running hnot]
  dsimp only at hsuits
  have hplain : (m.tick wait).handle msg = m.tick wait → msg.type ≠ .shutdown →
      Inv ((m.tick wait).message msg) (record (wait, .message msg) m ((m.tick wait).message msg) g) := by
    intro hhandle htype
    rw [message_plain htype (by rw [hhandle]; exact h.pending hnot), hhandle]
    exact htick.quiet (.refl _) (record_same hnone (fun _ _ _ hs => hs))
  cases htype : msg.type with
  | data => exact absurd htype hdata
  | shutdown =>
    rw [htype] at hsuits
    have hstep : (m.tick wait).message msg = { (m.tick wait).hangup with stopped := true } := by
      unfold message
      rw [htype]
    rw [hstep]
    refine htick.hung ⟨rfl, rfl, rfl, rfl, rfl, rfl, id, fun _ _ => rfl⟩ hsuits nofun (record_same hnone ?_)
    exact fun c _ hs => absurd hs (Option.some_ne_none c).symm
  | modemCtl =>
    rw [htype] at hsuits
    obtain ⟨hpending, hstate⟩ := modemCtl_kept msg.data (m.tick wait)
    have hhandle : (m.tick wait).handle msg = (m.tick wait).modemCtl msg.data := by
      unfold handle
      rw [htype]
    rw [message_plain (by rw [htype]; decide) (by rw [hhandle]; exact hpending.trans (h.pending hnot)), hhandle]
    refine (inv_modemCtl htick hsuits hnot).quiet (.refl _) (record_same hnone (fun c _ hs hno => ?_))
    rw [hstate (by rw [hs]; exact Option.some_ne_none c)]
    exact hno
  | breakOn => exact hplain (by unfold handle; rw [htype]) (by rw [htype]; decide)
  | breakOff => exact hplain (by unfold handle; rw [htype]) (by rw [htype]; decide)
  | close => exact hplain (by unfold handle; rw [htype]) (by rw [htype]; decide)
  | line => exact hplain (by unfold handle; rw [htype]) (by rw [htype]; decide)
  | modemStatus => exact hplain (by unfold handle; rw [htype]) (by rw [htype]; decide)

theorem inv_step (h : Inv m g) (hsuits : Suits e m) : Inv (m.step e) (record e m (m.step e) g) := by
  obtain ⟨wait, event⟩ := e
  cases hstopped : m.stopped with
  | true =>
    have hstep : m.step (wait, event) = m := if_pos hstopped
    rw [hstep]
    refine h.quiet (.refl m) (record_same ?_ (fun _ _ _ hs => hs))
    unfold accepted
    split
    · refine if_neg (fun hno => ?_)
      rw [hstopped] at hno
      cases hno.2.1
    · rfl
  | false =>
    cases event with
    | poll =>
      have hstep : m.step (wait, .poll) = if (m.tick wait).reportLines.state = .online then
          (m.tick wait).reportLines.checkTcpData else (m.tick wait).reportLines := by
        unfold Modem.step
        rw [hstopped]
        rfl
      have hinv := inv_poll h (hsuits hstopped) hstopped wait
      rw [← hstep] at hinv
      refine hinv.quiet (.refl _) (record_same rfl (fun c hs hs' hno => ?_))
      rw [hstep] at hs' ⊢
      have hreport := quiet_reportLines (m.tick wait)
      split at hs'
      · next honline =>
        rw [if_pos honline]
        rcases checkTcpData_cases (m.tick wait).reportLines with hq | ⟨hh, _⟩
        · rw [hq.state, honline]
          decide
        · rw [hh.socket] at hs'
          cases hs'
      · next honline =>
        rw [if_neg honline, hreport.state]
        exact hno
    | message msg =>
      by_cases hdata : msg.type = .data
      · by_cases hstate : m.state = .command
        · rw [step_running hstopped]
          exact (inv_command (h.tick wait) hstate hdata).quiet (.refl _)
            (record_same (if_neg (fun h => h.2.2 hstate)) (fun _ _ _ hs => absurd hstate hs))
        · exact inv_data h hstopped hstate hdata hsuits
      · exact inv_control h hstopped hdata hsuits
    | settle =>
      by_cases hdone : m.state = .escape ∧ 1000 ≤ (m.tick wait).clock - m.lastCharTime
      · have hstep : m.step (wait, .settle) = (m.tick wait).handleEscapeSequence := by
          unfold Modem.step
          rw [hstopped]
          exact if_pos hdone
        rw [hstep]
        refine (h.tick wait).settle hdone.1 hdone.2 (funext fun c => ?_) (funext fun c => ?_) (fun c => ?_)
        · show (if _ then _ else _) = _
          split
          · exact List.append_nil _
          · rfl
        · exact if_neg (fun h => h.2.2 rfl)
        · show (if _ then _ else _) = if m.socket = some c then _ else _
          by_cases hs : m.socket = some c
          · rw [if_pos ⟨hs, hs, by rw [hdone.1]; decide, rfl⟩, if_pos hs]
            rfl
          · rw [if_neg (fun h => hs h.1), if_neg hs]
      · have hstep : m.step (wait, .settle) = m.tick wait := by
          unfold Modem.step
          rw [hstopped]
          exact if_neg hdone
        rw [hstep]
        exact (h.tick wait).quiet (.refl _) (record_same rfl (fun _ _ _ hs => hs))

/-! ## Runs -/

theorem Inv.transparent (h : Inv m g) : Transparent m g := by
  refine ⟨h.connected, fun c hs hno => ?_, h.parked, h.left, h.ended, fun c wait hs hnot hno hescaping hlong => ?_⟩
  · obtain ⟨held, hopening, _, hwritten⟩ := (h.current c hs hno).2.written
    exact ⟨held, hopening, hwritten⟩
  · obtain ⟨sent, held, htyped, hopening, hlen⟩ := hescaping
    have hne : held ≠ [] := by
      intro hnil
      rw [hnil] at hlen
      cases hlen
    have hcount := (h.current c hs hno).2.only sent held htyped hne hopening
    have hstate : m.state = .escape := by
      cases hmode : m.state with
      | command => exact absurd hmode hno
      | online =>
        have hlt := h.online hmode
        omega
      | escape => rfl
    have hstep : m.step (wait, .settle) = (m.tick wait).handleEscapeSequence := by
      have hdone : m.state = .escape ∧ 1000 ≤ (m.tick wait).clock - m.lastCharTime := ⟨hstate, hlong⟩
      unfold Modem.step
      rw [hnot]
      exact if_pos hdone
    rw [hstep]
    rfl

theorem inv_follow (es : List (Nat × Event)) (h : Inv m g) (hsuited : Suited es m) :
    Inv (follow es (m, g)).1 (follow es (m, g)).2 := by
  induction es generalizing m g with
  | nil => exact h
  | cons e es ih => exact ih (inv_step h hsuited.1) hsuited.2

end

def start (drains : Nat → Nat) (writes : Nat → Bool) (reads : Nat → Option (List Byte)) (dials : Nat → Dialing) : Modem :=
  { queue := { drains := drains }, net := { writes := writes, reads := reads, dials := dials } }

theorem inv_start (drains : Nat → Nat) (writes : Nat → Bool) (reads : Nat → Option (List Byte)) (dials : Nat → Dialing) :
    Inv (start drains writes reads dials) {} := by
  refine ⟨fun _ => rfl, fun _ _ => ⟨rfl, rfl, rfl⟩, nofun, fun _ => rfl, fun _ => rfl, nofun, nofun, fun h => absurd rfl h, nofun,
    nofun, nofun, fun c _ _ => ⟨[], fun h => absurd rfl h, ?_⟩⟩
  exact ⟨[], rfl, rfl⟩

/-- The loop polls, takes messages and settles; whatever it does and when, and however the network answers, what is
typed goes up whole, in a run that suits. -/
theorem upstream_transparent (drains : Nat → Nat) (writes : Nat → Bool) (reads : Nat → Option (List Byte))
    (dials : Nat → Dialing) (es : List (Nat × Event)) (hsuited : Suited es (start drains writes reads dials)) :
    Transparent (follow es (start drains writes reads dials, {})).1 (follow es (start drains writes reads dials, {})).2 :=
  (inv_follow es (inv_start drains writes reads dials) hsuited).transparent

def answered : Dialing where
  resolves := true
  resolving := fun _ => ⟨.success, []⟩
  creates := true
  connecting := fun _ => ⟨.success, []⟩

def typing (text : List Byte) : List (Nat × Event) := text.map (fun b => (0, .message ⟨.data, b.toNat⟩))

def dialled : List (Nat × Event) := typing (ascii "ATD1" ++ [13])

theorem upstream_transparent_answered :
    Transparent
      (follow (dialled ++ typing (ascii "x")) (start (fun _ => 0) (fun _ => true) (fun _ => some []) (fun _ => answered), {})).1
      (follow (dialled ++ typing (ascii "x")) (start (fun _ => 0) (fun _ => true) (fun _ => some []) (fun _ => answered), {})).2 :=
  upstream_transparent _ _ _ _ _ (by decide +kernel)

def redialled : List (Nat × Event) :=
  (0, .poll) :: dialled ++ [(0, .settle), (0, .poll), (1000, .message ⟨.data, 0x2B⟩), (0, .settle), (0, .poll)] ++ dialled ++
    [(0, .settle), (0, .poll)] ++ typing (ascii "x")

def closing : Modem := start (fun _ => 127) (fun _ => true) (fun n => if n = 1 then none else some []) (fun _ => answered)

/-- The second connection gets the `+`. -/
theorem plus_leaks :
    ¬Transparent (follow redialled (closing, {})).1 (follow redialled (closing, {})).2 := by
  intro h
  have hsocket : (follow redialled (closing, {})).1.socket = some 1 := by decide +kernel
  have hstate : (follow redialled (closing, {})).1.state ≠ .command := by decide +kernel
  have htyped : ((follow redialled (closing, {})).2.typed 1).length = 1 := by decide +kernel
  have hsaid : ((follow redialled (closing, {})).1.said 1).length = 2 := by decide +kernel
  obtain ⟨held, _, sent, hall, hsent⟩ := h.current 1 hsocket hstate
  rw [hall, List.length_append] at htyped
  rw [hsent, List.length_map] at hsaid
  omega

end GSSquared.Serial.Modem
