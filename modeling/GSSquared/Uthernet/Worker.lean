/-
The worker. It takes requests, polls its sockets and posts what has happened as events.
-/
import GSSquared.Uthernet.Protocol

set_option linter.all false

namespace GSSquared.Uthernet

open Bits

structure SockState where
  fd : Option (List Byte) := none
  status : Byte := Sr.closed
  gen : Nat := 0
  isTcp : Bool := false
  isUdp : Bool := false
  listening : Bool := false
  eof : Bool := false
  txPending : List Byte := []
deriving DecidableEq

/-- The rings and the credits are what it shares with the chip.  `posted` is every event it has
posted, dropped ones included. -/
structure NetWorker where
  requests : List NetRequest := []
  events : List NetEvent := []
  rxCredit : Fin 4 → Nat := fun _ => 0
  socks : Fin 4 → SockState := fun _ => {}
  slirpOk : Bool := true
  posted : List NetEvent := []

/-- What the host answers to a call of `socket`, `bind`, `connect` or `sendto`. -/
inductive HostResult where
  | ok
  | wouldBlock
  | error (err : Int)
deriving DecidableEq

/-- What `::send` answers: it takes so many bytes, or would block, or fails. -/
inductive SendResult where
  | took (n : Nat)
  | wouldBlock
  | error (err : Int)
deriving DecidableEq

/-- What `::recv` answers: some bytes, none at the end of the stream, or an error. -/
inductive RecvResult where
  | data (bytes : List Byte)
  | wouldBlock
  | error (err : Int)
deriving DecidableEq

namespace NetWorker

/-- `post`, and whether the ring took it. -/
def post (req : NetRequest) (w : NetWorker) : NetWorker × Bool :=
  match Channel.send ringCapacity w.requests req with
  | some requests => ({ w with requests := requests }, true)
  | none => (w, false)

def setRxCredit (sock : Fin 4) (credit : Nat) (w : NetWorker) : NetWorker :=
  { w with rxCredit := fun i => if i = sock then credit else w.rxCredit i }

def addRxCredit (sock : Fin 4) (n : Nat) (w : NetWorker) : NetWorker :=
  w.setRxCredit sock (w.rxCredit sock + n)

/-- `post_event`: a full ring drops it. -/
def postEvent (ev : NetEvent) (w : NetWorker) : NetWorker :=
  { w with
    events := (Channel.send ringCapacity w.events ev).getD w.events
    posted := w.posted ++ [ev] }

def setSock (sock : Fin 4) (st : SockState) (w : NetWorker) : NetWorker :=
  { w with socks := fun i => if i = sock then st else w.socks i }

def postStatus (sock : Fin 4) (status : Byte) (cause : NetCause) (err : Int) (peerIp : Ip) (peerPort : Nat)
    (w : NetWorker) : NetWorker :=
  w.postEvent
    { evt := .status, sock := sock, status := status, gen := (w.socks sock).gen, cause := cause, hostErr := err,
      srcIp := peerIp, srcPort := peerPort }

def closeState (sock : Fin 4) (w : NetWorker) : NetWorker :=
  w.setSock sock { gen := (w.socks sock).gen }

/-- `close_state` and a Status that says why. -/
def closeWith (sock : Fin 4) (cause : NetCause) (err : Int) (w : NetWorker) : NetWorker :=
  (w.closeState sock).postStatus sock Sr.closed cause err {} 0

/-- The loop of `flush_tcp_tx`, with what each `::send` answers: what is left, what has been
taken, and the error that ended it, if one did. -/
def sendLoop : List SendResult → List Byte → List Byte → List Byte × List Byte × Option Int
  | _, [], taken => ([], taken, none)
  | [], pending, taken => (pending, taken, none)
  | .wouldBlock :: _, pending, taken => (pending, taken, none)
  | .error err :: _, pending, taken => (pending, taken, some err)
  | .took n :: results, pending, taken =>
    if 0 < n then sendLoop results (pending.drop n) (taken ++ pending.take n) else (pending, taken, some 0)

def flushTcpTx (sock : Fin 4) (results : List SendResult) (w : NetWorker) : NetWorker :=
  let st := w.socks sock
  match st.fd with
  | none => w
  | some handed =>
    if st.txPending = [] then w
    else
      let (pending, taken, failed) := sendLoop results st.txPending []
      let w := w.setSock sock { st with fd := some (handed ++ taken), txPending := pending }
      match failed with
      | some err => w.closeWith sock .reset err
      | none => if pending = [] then w.postEvent { evt := .sendDone, sock := sock, gen := st.gen } else w

def definesGen : NetMsg → Bool
  | .openTcp | .openUdp | .close | .closeHost | .adoptListen => true
  | _ => false

def isRaw : NetMsg → Bool
  | .macRawTx | .ipRawTx => true
  | _ => false

/-- `handle_request`, with what the host answers to it. -/
def handleRequest (req : NetRequest) (answer : HostResult) (bound : HostResult) (results : List SendResult)
    (w : NetWorker) : NetWorker :=
  let w := if definesGen req.msg then w.setSock req.sock { w.socks req.sock with gen := req.gen } else w
  if !definesGen req.msg && (req.gen != (w.socks req.sock).gen) && !isRaw req.msg then w
  else
    let st := w.socks req.sock
    match req.msg with
    | .openTcp =>
      match answer with
      | .ok =>
        w.setSock req.sock { gen := st.gen, fd := some [], isTcp := true, status := Sr.init }
      | .wouldBlock => w.closeWith req.sock .failed 0
      | .error err => w.closeWith req.sock .failed err
    | .openUdp =>
      match answer, (if req.localPort = 0 then .ok else bound) with
      | .ok, .ok => w.setSock req.sock { gen := st.gen, fd := some [], isUdp := true, status := Sr.udp }
      | .ok, .wouldBlock | .wouldBlock, _ => w.closeWith req.sock .failed 0
      | .ok, .error err | .error err, _ => w.closeWith req.sock .failed err
    | .adoptListen =>
      w.setSock req.sock { gen := st.gen, fd := some [], isTcp := true, listening := true, status := Sr.listen }
    | .connect =>
      if st.fd = none ∨ st.isTcp = false then w
      else
        match answer with
        | .ok =>
          (w.setSock req.sock { st with status := Sr.established }).postStatus req.sock Sr.established .connected 0
            req.destIp req.destPort
        | .wouldBlock => w.setSock req.sock { st with status := Sr.synSent }
        | .error err => w.closeWith req.sock .failed err
    | .close | .closeHost => w.closeState req.sock
    | .sendTcp =>
      if st.fd = none ∨ st.isTcp = false ∨ req.payload = [] then w
      else
        (w.setSock req.sock { st with txPending := st.txPending ++ req.payload }).flushTcpTx req.sock results
    | .sendUdp =>
      if st.fd = none ∨ req.payload = [] then w
      else
        match answer with
        | .ok => w.postEvent { evt := .sendDone, sock := req.sock, gen := st.gen }
        | .wouldBlock => w.postEvent { evt := .sendDone, sock := req.sock, gen := st.gen, cause := .failed }
        | .error err =>
          w.postEvent { evt := .sendDone, sock := req.sock, gen := st.gen, cause := .failed, hostErr := err }
    | .macRawTx | .ipRawTx =>
      w.postEvent
        { evt := .sendDone, sock := req.sock, gen := req.gen, cause := if w.slirpOk then .none else .failed }

def pollConnect (sock : Fin 4) (answer : HostResult) (w : NetWorker) : NetWorker :=
  let st := w.socks sock
  if st.fd = none ∨ st.status ≠ Sr.synSent then w
  else
    match answer with
    | .ok => (w.setSock sock { st with status := Sr.established }).postStatus sock Sr.established .connected 0 {} 0
    | .wouldBlock => w
    | .error err => w.closeWith sock .failed err

def pollAccept (sock : Fin 4) (peer : Option (Ip × Nat)) (w : NetWorker) : NetWorker :=
  let st := w.socks sock
  if st.fd = none ∨ st.listening = false ∨ st.status ≠ Sr.listen then w
  else
    match peer with
    | some (ip, port) =>
      (w.setSock sock { st with fd := some [], listening := false, status := Sr.established }).postStatus sock
        Sr.established .connected 0 ip port
    | none => w

def pollSend (sock : Fin 4) (results : List SendResult) (w : NetWorker) : NetWorker :=
  let st := w.socks sock
  if st.fd = none ∨ st.status = Sr.synSent ∨ st.isTcp = false ∨ st.txPending = [] then w
  else w.flushTcpTx sock results

/-- The most that one `::recv` asks for. -/
def recvSize : Nat := 2048

/-- The receive of a connection: no more than the chip has room for, and only when an event can
be posted.  `data` is cut to what was asked for, and no data at all is the end of the stream. -/
def pollRecv (sock : Fin 4) (answer : RecvResult) (w : NetWorker) : NetWorker :=
  let st := w.socks sock
  if st.fd = none ∨ st.status ≠ Sr.established ∨ st.isTcp = false ∨ st.eof = true then w
  else if Channel.canSend ringCapacity w.events = false then w
  else if w.rxCredit sock = 0 then w
  else
    match answer with
    | .data bytes =>
      let bytes := bytes.take (min (w.rxCredit sock) recvSize)
      if bytes = [] then
        (w.setSock sock { st with eof := true, status := Sr.closeWait }).postStatus sock Sr.closeWait .remoteClosed 0
          {} 0
      else
        (w.setRxCredit sock (w.rxCredit sock - bytes.length)).postEvent
          { evt := .rxTcp, sock := sock, gen := st.gen, payload := bytes }
    | .wouldBlock => w
    | .error err => w.closeWith sock .reset err

def pollUdp (sock : Fin 4) (answer : RecvResult) (srcIp : Ip) (srcPort : Nat) (w : NetWorker) : NetWorker :=
  let st := w.socks sock
  if st.fd = none ∨ st.status ≠ Sr.udp ∨ st.isUdp = false then w
  else if Channel.canSend ringCapacity w.events = false then w
  else
    match answer with
    | .data bytes =>
      let bytes := bytes.take recvSize
      if bytes = [] then w
      else
        w.postEvent
          { evt := .rxUdp, sock := sock, gen := st.gen, srcIp := srcIp, srcPort := srcPort, payload := bytes }
    | .wouldBlock | .error _ => w

def slirpRx (frame : List Byte) (w : NetWorker) : NetWorker :=
  if Channel.canSend ringCapacity w.events = false then w
  else w.postEvent { evt := .macRawRx, sock := 0, gen := (w.socks 0).gen, payload := frame }

inductive Step where
  | handleRequest (answer bound : HostResult) (results : List SendResult)
  | pollConnect (sock : Fin 4) (answer : HostResult)
  | pollAccept (sock : Fin 4) (peer : Option (Ip × Nat))
  | pollSend (sock : Fin 4) (results : List SendResult)
  | pollRecv (sock : Fin 4) (answer : RecvResult)
  | pollUdp (sock : Fin 4) (answer : RecvResult) (srcIp : Ip) (srcPort : Nat)
  | slirpRx (frame : List Byte)

def step (w : NetWorker) : Step → NetWorker
  | .handleRequest answer bound results =>
    match w.requests with
    | [] => w
    | req :: requests => { w with requests := requests }.handleRequest req answer bound results
  | .pollConnect sock answer => w.pollConnect sock answer
  | .pollAccept sock peer => w.pollAccept sock peer
  | .pollSend sock results => w.pollSend sock results
  | .pollRecv sock answer => w.pollRecv sock answer
  | .pollUdp sock answer srcIp srcPort => w.pollUdp sock answer srcIp srcPort
  | .slirpRx frame => w.slirpRx frame

end NetWorker

end GSSquared.Uthernet
