/-
The modem: a serial device that dials with telnet.
-/
import GSSquared.Serial.Device
import GSSquared.Lib.Wire

set_option linter.all false

namespace GSSquared.Serial

open Bits Wire

inductive ModemState where
  | command | online | escape
deriving DecidableEq

inductive TelnetState where
  | data | iac | negotiate
deriving DecidableEq

/-- The queue to the guest: what is in it, what has been taken from it, how many messages it has
dropped, with the characters of responses among them, and how much of it will be taken before each
look. -/
structure DevQueue where
  messages : List SerialMessage := []
  taken : List SerialMessage := []
  dropped : Nat := 0
  clipped : Nat := 0
  drains : Nat → Nat

inductive NetStatus where
  | success | failure | waiting
deriving DecidableEq

structure Slice where
  status : NetStatus
  messages : List SerialMessage := []

structure Dialing where
  resolves : Bool
  resolving : Nat → Slice
  creates : Bool
  connecting : Nat → Slice

/-- The network.  Connections are numbered; a read has no bytes to give where the connection is lost. -/
structure Net where
  calls : Nat := 0
  wire : Nat → List Byte := fun _ => []
  writes : Nat → Bool
  reads : Nat → Option (List Byte)
  dials : Nat → Dialing

/-- `ModemDevice`. -/
structure Modem where
  state : ModemState := .command
  commandBuffer : List Byte := []
  socket : Option Nat := none
  commandEcho : Bool := true
  lastCharTime : Nat := 0
  escapeCount : Nat := 0
  telnetState : TelnetState := .data
  telnetCommand : Byte := 0
  tcpBuffer : List Byte := []
  shutdownPending : Bool := false
  lastDcd : Option Bool := none
  lastDtr : Bool := false
  dtrSeen : Bool := false
  stopped : Bool := false
  clock : Nat := 0
  queue : DevQueue
  net : Net

namespace DevQueue

def drain (q : DevQueue) : DevQueue :=
  { q with
    messages := q.messages.drop (q.drains 0)
    taken := q.taken ++ q.messages.take (q.drains 0)
    drains := fun n => q.drains (n + 1) }

def trySend (msg : SerialMessage) (q : DevQueue) : Bool × DevQueue :=
  let q := q.drain
  let r := Serial.send q.messages msg
  (r.2, { q with messages := r.1 })

def send (msg : SerialMessage) (q : DevQueue) : Bool × DevQueue :=
  let r := q.trySend msg
  (r.1, if r.1 then r.2 else { r.2 with dropped := r.2.dropped + 1 })

def isFull (q : DevQueue) : Bool × DevQueue := (decide (queueDepth ≤ q.drain.messages.length), q.drain)

def sendText : List Byte → DevQueue → DevQueue
  | [], q => q
  | b :: bs, q =>
    let r := q.send ⟨.data, b.toNat⟩
    sendText bs (if r.1 then r.2 else { r.2 with clipped := r.2.clipped + 1 })

def fill : List Byte → DevQueue → List Byte × DevQueue
  | [], q => ([], q)
  | b :: bs, q =>
    let r := q.isFull
    if r.1 then (b :: bs, r.2)
    else
      let r := r.2.send ⟨.data, b.toNat⟩
      if r.1 then fill bs r.2 else (b :: bs, r.2)

end DevQueue

namespace Modem

def sendResponse (text : List Byte) (m : Modem) : Modem := { m with queue := m.queue.sendText text }

def crlf : List Byte := [13, 10]

def okText : List Byte := ascii "OK" ++ crlf

def errorText : List Byte := ascii "ERROR" ++ crlf

def noCarrierText : List Byte := ascii "NO CARRIER" ++ crlf

def connectText : List Byte := ascii "CONNECT 9600" ++ crlf

/-- `NO CARRIER` on a line of its own. -/
def lostText : List Byte := crlf ++ noCarrierText

def sendOkResponse (m : Modem) : Modem := m.sendResponse okText

def sendErrorResponse (m : Modem) : Modem := m.sendResponse errorText

def sendNoCarrierResponse (m : Modem) : Modem := m.sendResponse noCarrierText

def sendLost (m : Modem) : Modem := m.sendResponse lostText

/-- `NET_WriteToStreamSocket`. -/
def writeSocket (bytes : List Byte) (m : Modem) : Bool × Modem :=
  match m.socket with
  | none => (false, m)
  | some c =>
    (m.net.writes 0,
      { m with net := { m.net with
          writes := fun n => m.net.writes (n + 1)
          wire := fun i => if i = c ∧ m.net.writes 0 = true then m.net.wire i ++ bytes else m.net.wire i } })

def hangup (m : Modem) : Modem := { m with socket := none, state := .command, telnetState := .data, tcpBuffer := [] }

def sendTelnetResponse (command option : Byte) (m : Modem) : Modem := (m.writeSocket [255, command, option]).2

def sendTcpData (byte : Byte) (m : Modem) : Modem :=
  if m.socket = none then m
  else
    let r := m.writeSocket (if byte = 255 then [255, 255] else [byte])
    if r.1 then r.2 else r.2.sendLost.hangup

def sendPluses : Nat → Modem → Modem
  | 0, m => m
  | n + 1, m => sendPluses n (m.sendTcpData 0x2B)

def dialAborted : List SerialMessage → Modem → Bool × Modem
  | [], m => (false, m)
  | msg :: msgs, m =>
    match msg.type with
    | .shutdown => (true, { m with shutdownPending := true })
    | .data => (true, m)
    | _ => dialAborted msgs m

/-- `dial_wait`, for so many slices. -/
def dialWait : Nat → (Nat → Slice) → Modem → NetStatus × Modem
  | 0, _, m => (.waiting, m)
  | n + 1, slices, m =>
    if (slices 0).status ≠ .waiting then ((slices 0).status, m)
    else
      let r := m.dialAborted (slices 0).messages
      if r.1 then (.failure, r.2) else dialWait n (fun i => slices (i + 1)) r.2

def digits : List Byte → Nat → Nat
  | [], n => n
  | b :: bs, n => if 0x30 ≤ b.toNat ∧ b.toNat ≤ 0x39 then digits bs (10 * n + (b.toNat - 0x30)) else n

/-- `std::stoi` finds an `int`. -/
def isPort (text : List Byte) : Bool :=
  let negative := text.head? = some 0x2D
  let text := if negative ∨ text.head? = some 0x2B then text.tail else text
  match text with
  | [] => false
  | b :: bs =>
    decide (0x30 ≤ b.toNat ∧ b.toNat ≤ 0x39 ∧ digits (b :: bs) 0 < (if negative then 2 ^ 31 + 1 else 2 ^ 31))

def portText : List Byte → Option (List Byte)
  | [] => none
  | b :: bs => if b = 0x3A then some bs else portText bs

def connect (slices : Nat → Slice) (m : Modem) : Modem :=
  let r := m.dialWait 600 slices
  if r.1 ≠ .success then { r.2 with socket := none }.sendNoCarrierResponse
  else
    (({ r.2 with state := .online, telnetState := .data, tcpBuffer := [] }.sendTelnetResponse 251 0).sendTelnetResponse
      253 0).sendResponse connectText

def nextDial (m : Modem) : Modem := { m with net := { m.net with dials := fun n => m.net.dials (n + 1) } }

/-- `NET_CreateClient`. -/
def createClient (m : Modem) : Modem :=
  { m with socket := some m.net.calls, net := { m.net with calls := m.net.calls + 1 } }

def dial (address : List Byte) (m : Modem) : Modem :=
  let m := if m.socket ≠ none then m.hangup else m
  if (portText address).any (fun text => !isPort text) then m.sendErrorResponse
  else
    let d := m.net.dials 0
    if !d.resolves then m.nextDial.sendNoCarrierResponse
    else
      let r := m.nextDial.dialWait 200 d.resolving
      if r.1 ≠ .success then r.2.sendNoCarrierResponse
      else if !d.creates then r.2.sendNoCarrierResponse
      else r.2.createClient.connect d.connecting

def toUpper (b : Byte) : Byte := if 0x61 ≤ b.toNat ∧ b.toNat ≤ 0x7A then b - 0x20 else b

/-- The address of a dial command, after `T` or `P` and without its spaces. -/
def addressOf (rest : List Byte) : List Byte :=
  (if rest.head? = some 0x54 ∨ rest.head? = some 0x50 then rest.tail else rest).filter (fun b => b ≠ 0x20)

/-- A command in capitals, without its `AT`. -/
def perform (cmd : List Byte) (m : Modem) : Modem :=
  match cmd with
  | [] => m.sendOkResponse
  | c :: rest =>
    if c = 0x44 then if addressOf rest = [] then m.sendErrorResponse else m.dial (addressOf rest)
    else if c = 0x48 ∨ c = 0x5A then m.hangup.sendOkResponse
    else if c = 0x45 then
      if rest.head? = some 0x30 then { m with commandEcho := false }.sendOkResponse
      else if rest.head? = some 0x31 then { m with commandEcho := true }.sendOkResponse
      else m.sendErrorResponse
    else if c = 0x56 ∨ c = 0x51 then m.sendOkResponse
    else m.sendErrorResponse

def command (m : Modem) : List Byte :=
  let cmd := m.commandBuffer.map toUpper
  if cmd.take 2 = ascii "AT" then cmd.drop 2 else cmd

def processCommand (m : Modem) : Modem := { m.perform m.command with commandBuffer := [] }

def processTelnetByte (byte : Byte) (m : Modem) : Modem :=
  match m.telnetState with
  | .data =>
    if byte = 255 then { m with telnetState := .iac } else { m with tcpBuffer := m.tcpBuffer ++ [byte] }
  | .iac =>
    if byte = 255 then { m with tcpBuffer := m.tcpBuffer ++ [255], telnetState := .data }
    else if byte = 251 ∨ byte = 252 ∨ byte = 253 ∨ byte = 254 then
      { m with telnetCommand := byte, telnetState := .negotiate }
    else if byte = 250 then { m with telnetState := .data }
    else { m with telnetState := .data }
  | .negotiate =>
    let m :=
      if m.telnetCommand = 251 then
        if byte = 0 ∨ byte = 1 ∨ byte = 3 then m.sendTelnetResponse 253 byte else m.sendTelnetResponse 254 byte
      else if m.telnetCommand = 253 then
        if byte = 0 then m.sendTelnetResponse 251 byte else m.sendTelnetResponse 252 byte
      else m
    { m with telnetState := .data }

def processTelnetBytes (bytes : List Byte) (m : Modem) : Modem := bytes.foldl (fun m b => m.processTelnetByte b) m

def drainTcpBufferToQueue (m : Modem) : Modem :=
  let r := m.queue.fill m.tcpBuffer
  { m with tcpBuffer := r.1, queue := r.2 }

/-- `NET_ReadFromStreamSocket`. -/
def readSocket (m : Modem) : Option (List Byte) × Modem :=
  (m.net.reads 0, { m with net := { m.net with reads := fun n => m.net.reads (n + 1) } })

def checkTcpData (m : Modem) : Modem :=
  if m.socket = none then m
  else
    let m := m.drainTcpBufferToQueue
    if 4096 ≤ m.tcpBuffer.length then m
    else
      match m.readSocket with
      | (none, m) => m.sendLost.hangup
      | (some [], m) => m
      | (some bytes, m) => (m.processTelnetBytes bytes).drainTcpBufferToQueue

def reportLines (m : Modem) : Modem :=
  if m.lastDcd = some m.socket.isSome then m
  else
    let r := m.queue.trySend ⟨.modemStatus, (if m.socket.isSome then 1 else 0) ||| 2 ||| 8⟩
    if r.1 then { m with queue := r.2, lastDcd := some m.socket.isSome } else { m with queue := r.2 }

def echo (byte : Byte) (m : Modem) : Modem :=
  if m.commandEcho then { m with queue := (m.queue.send ⟨.data, byte.toNat⟩).2 } else m

def commandByte (byte : Byte) (m : Modem) : Modem :=
  let m := m.echo byte
  if byte = 13 ∨ byte = 10 then if m.commandBuffer ≠ [] then m.processCommand else m
  else if byte = 8 ∨ byte = 127 then { m with commandBuffer := m.commandBuffer.dropLast }
  else if 32 ≤ byte.toNat ∧ byte.toNat < 127 then { m with commandBuffer := m.commandBuffer ++ [byte] }
  else m

def onlineByte (byte : Byte) (silence : Nat) (m : Modem) : Modem :=
  if byte = 0x2B then
    if m.escapeCount = 0 then
      if 1000 ≤ silence then { m with escapeCount := 1 } else m.sendTcpData byte
    else if m.escapeCount < 3 then
      if silence < 500 then
        { m with escapeCount := m.escapeCount + 1, state := if m.escapeCount + 1 = 3 then .escape else m.state }
      else { (sendPluses m.escapeCount m).sendTcpData byte with escapeCount := 0 }
    else m
  else
    let m := if 0 < m.escapeCount then { sendPluses m.escapeCount m with escapeCount := 0 } else m
    m.sendTcpData byte

/-- A byte after three `+`. -/
def escapeByte (byte : Byte) (silence : Nat) (m : Modem) : Modem :=
  if silence < 1000 then { (sendPluses 3 m).sendTcpData byte with state := .online, escapeCount := 0 } else m

def dataByte (byte : Byte) (m : Modem) : Modem :=
  let silence := m.clock - m.lastCharTime
  let t :=
    match m.state with
    | .command => m.commandByte byte
    | .online => m.onlineByte byte silence
    | .escape => m.escapeByte byte silence
  { t with lastCharTime := m.clock }

def modemCtl (data : Nat) (m : Modem) : Modem :=
  let dtr := data % 2 = 1
  let m := if m.dtrSeen ∧ m.lastDtr ∧ ¬dtr ∧ m.socket ≠ none then m.hangup.sendLost else m
  { m with lastDtr := dtr, dtrSeen := true }

def handleEscapeSequence (m : Modem) : Modem := { { m with state := .command }.sendOkResponse with escapeCount := 0 }

inductive Event where
  /-- The lines are reported and the connection is read. -/
  | poll
  /-- A message from the guest. -/
  | message (msg : SerialMessage)
  /-- The end of the loop. -/
  | settle
deriving DecidableEq

def message (msg : SerialMessage) (m : Modem) : Modem :=
  match msg.type with
  | .shutdown => { m.hangup with stopped := true }
  | type =>
    let m :=
      match type with
      | .data => m.dataByte (BitVec.ofNat 8 msg.data)
      | .modemCtl => m.modemCtl msg.data
      | _ => m
    if m.shutdownPending then { m.hangup with stopped := true } else m

def tick (wait : Nat) (m : Modem) : Modem := { m with clock := m.clock + wait }

/-- The pieces of `device_loop`, each at some time after the one before. -/
def step (e : Nat × Event) (m : Modem) : Modem :=
  if m.stopped then m
  else
    let m := m.tick e.1
    match e.2 with
    | .poll =>
      let m := m.reportLines
      if m.state = .online then m.checkTcpData else m
    | .message msg => m.message msg
    | .settle => if m.state = .escape ∧ 1000 ≤ m.clock - m.lastCharTime then m.handleEscapeSequence else m

def run (es : List (Nat × Event)) (m : Modem) : Modem := es.foldl (fun m e => m.step e) m

end Modem

end GSSquared.Serial
