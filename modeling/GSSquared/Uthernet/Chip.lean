/-
The W5100. Its memory is 32K of registers, transmit buffers and receive buffers.
-/
import Mathlib
import GSSquared.Uthernet.Worker

set_option linter.all false

namespace GSSquared.Uthernet

open Bits

/-- `SocketState`; `registerAddress` is the same always and is computed by `reg`. -/
structure SocketState where
  transmitBase : Nat := 0
  transmitSize : Nat := 0
  receiveBase : Nat := 0
  receiveSize : Nat := 0
  snRxWr : Nat := 0
  snRxRsr : Nat := 0
  status : Byte := Sr.closed
  headerSize : Nat := 0
  rxPending : List Byte := []
  gen : Nat := 0
deriving DecidableEq

abbrev Index := Fin memSize

structure Store where
  sock : Fin 4
  address : Nat
  value : Byte
  base : Nat
  size : Nat
deriving DecidableEq

structure Chip where
  memory : Index → Byte := fun _ => 0
  sockets : Fin 4 → SocketState := fun _ => {}
  mode : Byte := 0x01
  dataAddr : Nat := 0
  worker : NetWorker := {}
  stores : List Store := []

def reg (i : Fin 4) (r : Fin 0x100) : Index := ⟨0x400 + i.val * 0x100 + r.val, by unfold memSize; omega⟩

def getIbyte (value shift : Nat) : Byte := BitVec.ofNat 8 (value >>> shift)

def be16Bytes (v : Nat) : List Byte := [getIbyte v 8, getIbyte v 0]

namespace Chip

def setMem (a : Index) (v : Byte) (s : Chip) : Chip := { s with memory := fun b => if b = a then v else s.memory b }

def setMems (l : List (Index × Byte)) (s : Chip) : Chip := l.foldl (fun s p => s.setMem p.1 p.2) s

def setSocket (i : Fin 4) (st : SocketState) (s : Chip) : Chip :=
  { s with sockets := fun j => if j = i then st else s.sockets j }

/-- `memory_` at an index that the code does not bound. -/
def at? (a : Nat) (s : Chip) : Option Byte := if h : a < memSize then some (s.memory ⟨a, h⟩) else none

/-- `read_be16` of two registers of a socket. -/
def be16 (i : Fin 4) (hi lo : Fin 0x100) (s : Chip) : Nat :=
  (s.memory (reg i hi)).toNat * 0x100 + (s.memory (reg i lo)).toNat

def rxRd (i : Fin 4) (s : Chip) : Nat := s.be16 i 0x28 0x29

def txRd (i : Fin 4) (s : Chip) : Nat := s.be16 i 0x22 0x23

def txWr (i : Fin 4) (s : Chip) : Nat := s.be16 i 0x24 0x25

def post (req : NetRequest) (s : Chip) : Chip := { s with worker := (s.worker.post req).1 }

def setStatus (i : Fin 4) (status : Byte) (s : Chip) : Chip := s.setSocket i { s.sockets i with status := status }

/-- The loop of `set_tx_sizes` and `set_rx_sizes`: two bits of the register for each socket, and
when the pool is exhausted later sockets get what is left. -/
def windowLoop (last : Nat) : Nat → Nat → Nat → List (Nat × Nat)
  | 0, _, _ => []
  | n + 1, value, base =>
    let next := min (base + 2 ^ (10 + value % 4)) last
    (base, next - base) :: windowLoop last n (value / 4) next

def window (first last : Nat) (value : Byte) (i : Fin 4) : Nat × Nat :=
  (windowLoop last 4 value.toNat first).getD i (last, 0)

def setTxSizes (value : Byte) (s : Chip) : Chip :=
  { s.setMem ⟨0x1B, by decide⟩ value with
    sockets := fun i =>
      { s.sockets i with
        transmitBase := (window txBase rxBase value i).1
        transmitSize := (window txBase rxBase value i).2 } }

def setRxSizes (value : Byte) (s : Chip) : Chip :=
  { s.setMem ⟨0x1A, by decide⟩ value with
    sockets := fun i =>
      { s.sockets i with
        receiveBase := (window rxBase memSize value i).1
        receiveSize := (window rxBase memSize value i).2 } }

def resetRxtx (i : Fin 4) (s : Chip) : Chip :=
  (s.setSocket i { s.sockets i with snRxWr := 0, snRxRsr := 0 }).setMems
    [(reg i 0x22, 0), (reg i 0x23, 0), (reg i 0x24, 0), (reg i 0x25, 0), (reg i 0x28, 0), (reg i 0x29, 0)]

def headerSizeOf (status : Byte) : Nat :=
  if status = Sr.udp then 8 else if status = Sr.ipRaw then 6 else if status = Sr.macRaw then 2 else 0

def setHeaderSize (i : Fin 4) (s : Chip) : Chip :=
  s.setSocket i { s.sockets i with headerSize := headerSizeOf (s.sockets i).status }

def present (size rd wr : Nat) : Nat :=
  let rd := rd &&& (size - 1)
  let wr := wr &&& (size - 1)
  if wr < rd then wr + size - rd else wr - rd

def updateRsr (i : Fin 4) (s : Chip) : Chip :=
  let st := s.sockets i
  s.setSocket i
    { st with snRxRsr := if st.receiveSize = 0 then 0 else present st.receiveSize (s.rxRd i) st.snRxWr }

def txDataSize (i : Fin 4) (s : Chip) : Nat :=
  let size := (s.sockets i).transmitSize
  if size = 0 then 0 else present size (s.txRd i) (s.txWr i)

def txFree (i : Fin 4) (s : Chip) : Nat := (s.sockets i).transmitSize - s.txDataSize i

def roomFor (i : Fin 4) (len : Nat) (s : Chip) : Bool :=
  let st := s.sockets i
  st.receiveSize ≠ 0 && st.snRxRsr + len + st.headerSize < st.receiveSize

def rxFree (i : Fin 4) (s : Chip) : Nat :=
  let st := s.sockets i
  let used := st.snRxRsr + st.headerSize
  if used + 1 ≥ st.receiveSize then 0 else st.receiveSize - used - 1

def writeRxByte (i : Fin 4) (v : Byte) (s : Chip) : Option Chip :=
  let st := s.sockets i
  if st.receiveSize = 0 then some s
  else if h : st.receiveBase + st.snRxWr < memSize then
    let s' := (s.setMem ⟨st.receiveBase + st.snRxWr, h⟩ v).setSocket i
      { st with snRxWr := (st.snRxWr + 1) % st.receiveSize, snRxRsr := (st.snRxRsr + 1) % 0x10000 }
    some { s' with stores := s.stores ++ [⟨i, st.receiveBase + st.snRxWr, v, st.receiveBase, st.receiveSize⟩] }
  else none

def writeRxData (i : Fin 4) : List Byte → Chip → Option Chip
  | [], s => some s
  | v :: vs, s => do
      let s ← s.writeRxByte i v
      writeRxData i vs s

def raiseIr (i : Fin 4) (bits : Byte) (s : Chip) : Chip :=
  if bits ≠ 0 then s.setMem (reg i 0x02) (s.memory (reg i 0x02) ||| bits) else s

/-- The loop of `flush_tcp_pending`, which takes something off `rx_pending` each time. -/
def flushLoop (i : Fin 4) : Nat → Nat → Chip → Option (Chip × Nat)
  | 0, moved, s => some (s, moved)
  | fuel + 1, moved, s => do
      let pending := (s.sockets i).rxPending
      let room := s.rxFree i
      if pending = [] ∨ room = 0 then some (s, moved)
      else
        let n := min room pending.length
        let s ← s.writeRxData i (pending.take n)
        flushLoop i fuel (moved + n) (s.setSocket i { s.sockets i with rxPending := pending.drop n })

def flushTcpPending (i : Fin 4) (s : Chip) : Option (Chip × Nat) :=
  flushLoop i (s.sockets i).rxPending.length 0 s

def flushRaise (i : Fin 4) (s : Chip) : Option Chip := do
  let (s, moved) ← s.flushTcpPending i
  some (if moved > 0 then s.raiseIr i Ir.recv else s)

def ingestTcp (i : Fin 4) (data : List Byte) (s : Chip) : Option Chip := do
  let (s, _) ← s.flushTcpPending i
  let n := min (s.rxFree i) data.length
  let s ← s.writeRxData i (data.take n)
  some (s.setSocket i { s.sockets i with rxPending := (s.sockets i).rxPending ++ data.drop n })

def storePacket (i : Fin 4) (header payload : List Byte) (s : Chip) : Option Chip :=
  if s.roomFor i payload.length then do
    let s ← s.writeRxData i (header ++ payload)
    some (s.raiseIr i Ir.recv)
  else some s

/-- The rest of `ingest_macraw`: socket 0, if it takes raw frames. -/
def storeMacraw (toUs broadcast : Bool) (frame : List Byte) (s : Chip) : Option Chip :=
  if (s.sockets 0).status ≠ Sr.macRaw then some s
  else if s.memory (reg 0 0x00) &&& Mr.macFilter ≠ 0 ∧ toUs = false ∧ broadcast = false then some s
  else s.storePacket 0 (be16Bytes (frame.length + 2)) frame

def ipRawSocket (toUs broadcast : Bool) (frame : List Byte) (s : Chip) : Option (Fin 4) :=
  if (toUs || broadcast) && frame.getD 12 0 == 0x08 && frame.getD 13 0 == 0x00 && 34 ≤ frame.length &&
      14 + ((frame.getD 14 0).toNat &&& 0x0F) * 4 ≤ frame.length then
    (List.finRange 4).find? (fun i => (s.sockets i).status == Sr.ipRaw && s.memory (reg i 0x14) == frame.getD 23 0)
  else none

def ingestMacraw (frame : List Byte) (s : Chip) : Option Chip :=
  if frame.length < ethMinimumSize then some s
  else
    let toUs := frame.take 6 == (List.finRange 6).map (fun k => s.memory ⟨0x09 + k.val, by unfold memSize; omega⟩)
    let broadcast := frame.take 6 == List.replicate 6 0xFF
    match s.ipRawSocket toUs broadcast frame with
    | some i =>
      let payload := frame.drop (14 + ((frame.getD 14 0).toNat &&& 0x0F) * 4)
      if s.roomFor i payload.length then
        s.storePacket i ((frame.drop 26).take 4 ++ be16Bytes payload.length) payload
      else s.storeMacraw toUs broadcast frame
    | none => s.storeMacraw toUs broadcast frame

def setPeer (i : Fin 4) (ip : Ip) (port : Nat) (s : Chip) : Chip :=
  if ip ≠ {} ∨ port ≠ 0 then
    s.setMems
      [(reg i 0x0C, ip.b0), (reg i 0x0D, ip.b1), (reg i 0x0E, ip.b2), (reg i 0x0F, ip.b3),
        (reg i 0x10, getIbyte port 8), (reg i 0x11, getIbyte port 0)]
  else s

def dropHost (i : Fin 4) (s : Chip) : Chip :=
  { s.setSocket i { s.sockets i with status := Sr.closed, rxPending := [] } with worker := s.worker.setRxCredit i 0 }

def applyStatus (i : Fin 4) (ev : NetEvent) (s : Chip) : Chip :=
  match ev.cause with
  | .connected =>
    (((s.setStatus i Sr.established).setPeer i ev.srcIp ev.srcPort).setHeaderSize i).raiseIr i Ir.con
  | .remoteClosed => ((s.setStatus i Sr.closeWait).setHeaderSize i).raiseIr i Ir.discon
  | .reset => ((s.dropHost i).setHeaderSize i).raiseIr i Ir.discon
  | .failed => ((s.dropHost i).setHeaderSize i).raiseIr i Ir.timeout
  | .none => (s.setStatus i ev.status).setHeaderSize i

/-- `apply_event`: an event of an older generation is discarded, but a raw frame is for no
socket in particular. -/
def applyEvent (s : Chip) (ev : NetEvent) : Option Chip :=
  if h : ev.sock < 4 then
    let i : Fin 4 := ⟨ev.sock, h⟩
    if ev.evt ≠ .macRawRx ∧ ev.gen ≠ (s.sockets i).gen then some s
    else
      match ev.evt with
      | .status => some (s.applyStatus i ev)
      | .rxTcp => do
          let s' ← s.ingestTcp i ev.payload
          some (if (s'.sockets i).snRxRsr ≠ (s.sockets i).snRxRsr then s'.raiseIr i Ir.recv else s')
      | .rxUdp =>
        s.storePacket i (ev.srcIp.bytes ++ be16Bytes ev.srcPort ++ be16Bytes ev.payload.length) ev.payload
      | .macRawRx => s.ingestMacraw ev.payload
      | .ipRawRx => s.storePacket i (ev.srcIp.bytes ++ be16Bytes ev.payload.length) ev.payload
      | .sendDone => some (s.raiseIr i (if ev.cause = .failed then Ir.timeout else Ir.sendOk))
      | .none => some s
  else some s

def flushAll (s : Chip) : Option Chip :=
  (List.finRange 4).foldlM (fun s i => if (s.sockets i).rxPending = [] then some s else s.flushRaise i) s

def frameTick (s : Chip) : Option Chip := do
  let s ← s.flushAll
  s.worker.events.foldlM applyEvent { s with worker := { s.worker with events := [] } }

/-- `close_host`: a new generation, and the host's side is told. -/
def closeHost (i : Fin 4) (how : NetMsg) (s : Chip) : Chip :=
  let gen := (s.sockets i).gen + 1
  let s := (s.setSocket i { s.sockets i with gen := gen, rxPending := [] }).post { msg := how, sock := i, gen := gen }
  { s with worker := s.worker.setRxCredit i 0 }

/-- The protocol in `Sn_MR`. -/
def protocol (i : Fin 4) (s : Chip) : Byte := s.memory (reg i 0x00) &&& Mr.protoMask

def openStatus (i : Fin 4) (protocol : Byte) : Byte :=
  if protocol = Mr.ipRaw then Sr.ipRaw
  else if protocol = Mr.macRaw then (if i = 0 then Sr.macRaw else Sr.closed)
  else if protocol = Mr.tcp then Sr.init
  else if protocol = Mr.udp then Sr.udp
  else Sr.closed

def openSocket (i : Fin 4) (s : Chip) : Chip :=
  let protocol := s.protocol i
  let s := s.closeHost i .closeHost
  let gen := (s.sockets i).gen
  let s := if protocol = Mr.tcp then s.post { msg := .openTcp, sock := i, gen := gen }
    else if protocol = Mr.udp then
      s.post { msg := .openUdp, sock := i, gen := gen, localPort := s.be16 i 0x04 0x05 }
    else s
  let s := ((s.setStatus i (openStatus i protocol)).setHeaderSize i).resetRxtx i
  { s with worker := s.worker.setRxCredit i (if protocol = Mr.tcp then (s.sockets i).receiveSize - 1 else 0) }

/-- `listen_socket`; `bound` says whether the host gives the port. -/
def listenSocket (i : Fin 4) (bound : Bool) (s : Chip) : Chip :=
  let (worker, posted) := s.worker.post { msg := .adoptListen, sock := i, gen := (s.sockets i).gen }
  if bound && posted then { s with worker := worker }.setStatus i Sr.listen
  else (((s.closeHost i .closeHost).setStatus i Sr.closed).setHeaderSize i).raiseIr i Ir.timeout

/-- The bytes between `TX_RD` and `TX_WR`. -/
def gather (i : Fin 4) (s : Chip) : Option (List Byte) :=
  let st := s.sockets i
  let mask := st.transmitSize - 1
  (List.range (s.txDataSize i)).mapM (fun c => s.at? (st.transmitBase + (((s.txRd i &&& mask) + c) &&& mask)))

def carryAround (n : Nat) : Nat := if n < 0x10000 then n else carryAround (n % 0x10000 + n / 0x10000)
termination_by n
decreasing_by omega

def ipHeader (i : Fin 4) (length : Nat) (s : Chip) : List Byte :=
  [0x45, 0x00] ++ be16Bytes (20 + length) ++ [0x00, 0x00, 0x00, 0x00, s.memory (reg i 0x16), s.memory (reg i 0x14)] ++
    [0x00, 0x00] ++ (List.finRange 4).map (fun k => s.memory ⟨0x0F + k.val, by unfold memSize; omega⟩) ++
    [s.memory (reg i 0x0C), s.memory (reg i 0x0D), s.memory (reg i 0x0E), s.memory (reg i 0x0F)]

def checksum (header : List Byte) : Nat :=
  0xFFFF - carryAround
    (((List.range 10).map (fun w => (header.getD (2 * w) 0).toNat * 0x100 + (header.getD (2 * w + 1) 0).toNat)).sum)

def ipRawFrame (i : Fin 4) (payload : List Byte) (s : Chip) : List Byte :=
  let header := s.ipHeader i payload.length
  List.replicate 6 0xFF ++ (List.finRange 6).map (fun k => s.memory ⟨0x09 + k.val, by unfold memSize; omega⟩) ++
    [0x08, 0x00] ++ header.take 10 ++ be16Bytes (checksum header) ++ header.drop 12 ++ payload

def destIp (i : Fin 4) (s : Chip) : Ip :=
  ⟨s.memory (reg i 0x0C), s.memory (reg i 0x0D), s.memory (reg i 0x0E), s.memory (reg i 0x0F)⟩

def sendRequest (i : Fin 4) (packet : List Byte) (s : Chip) : NetRequest :=
  let st := s.sockets i
  if st.status = Sr.udp then
    { msg := .sendUdp, sock := i, gen := st.gen, payload := packet, destIp := s.destIp i, destPort := s.be16 i 0x10 0x11 }
  else if st.status = Sr.macRaw then { msg := .macRawTx, sock := i, gen := st.gen, payload := packet }
  else if st.status = Sr.ipRaw then { msg := .ipRawTx, sock := i, gen := st.gen, payload := s.ipRawFrame i packet }
  else { msg := .sendTcp, sock := i, gen := st.gen, payload := packet }

def sendable (status : Byte) : Bool :=
  status == Sr.established || status == Sr.closeWait || status == Sr.udp || status == Sr.macRaw || status == Sr.ipRaw

/-- `TX_RD` brought up to `TX_WR`. -/
def consume (i : Fin 4) (s : Chip) : Chip :=
  s.setMems [(reg i 0x22, s.memory (reg i 0x24)), (reg i 0x23, s.memory (reg i 0x25))]

def sendData (i : Fin 4) (s : Chip) : Option Chip :=
  if sendable (s.sockets i).status = false ∨ s.txDataSize i = 0 then some s
  else do
    let packet ← s.gather i
    let s := s.consume i
    some (s.post (s.sendRequest i packet))

/-- RECV: what the guest has read is credit again, and makes room for what is pending. -/
def receive (i : Fin 4) (s : Chip) : Option Chip :=
  let old := (s.sockets i).snRxRsr
  let s := s.updateRsr i
  let new := (s.sockets i).snRxRsr
  let s := if old > new then { s with worker := s.worker.addRxCredit i (old - new) } else s
  s.flushRaise i

def handleCommand (i : Fin 4) (cmd : Byte) (bound : Bool) (s : Chip) : Option Chip :=
  let status := (s.sockets i).status
  if cmd = Cr.open' then some (s.openSocket i)
  else if cmd = Cr.listen then
    some (if status = Sr.init ∧ s.protocol i = Mr.tcp then s.listenSocket i bound else s)
  else if cmd = Cr.connect then
    some (if status = Sr.init ∧ s.protocol i = Mr.tcp then
        (s.post
          { msg := .connect, sock := i, gen := (s.sockets i).gen, destIp := s.destIp i,
            destPort := s.be16 i 0x10 0x11 }).setStatus i Sr.synSent
      else s)
  else if cmd = Cr.discon then
    some (if status = Sr.established ∨ status = Sr.closeWait then
        (((s.closeHost i .close).setStatus i Sr.closed).setHeaderSize i).raiseIr i Ir.discon
      else s)
  else if cmd = Cr.close then some (((s.closeHost i .close).setStatus i Sr.closed).setHeaderSize i)
  else if cmd = Cr.send then s.sendData i
  else if cmd = Cr.sendKeep then
    some (if status = Sr.established ∧ s.protocol i = Mr.tcp then s.raiseIr i Ir.sendOk else s)
  else if cmd = Cr.recv then s.receive i
  else some s

def resetSocket (s : Chip) (i : Fin 4) : Chip :=
  ((s.setSocket i { gen := (s.sockets i).gen }).closeHost i .closeHost).setMems
    [(reg i 0x06, 0xFF), (reg i 0x07, 0xFF), (reg i 0x08, 0xFF), (reg i 0x09, 0xFF), (reg i 0x0A, 0xFF),
      (reg i 0x0B, 0xFF), (reg i 0x16, 0x80)]

def reset (powerCycle : Bool) (s : Chip) : Chip :=
  let s := { s with mode := 0x01, dataAddr := if powerCycle then 0 else s.dataAddr, memory := fun _ => 0 }
  let s := (List.finRange 4).foldl resetSocket s
  let s := s.setMems
    [(⟨0x17, by decide⟩, 0x07), (⟨0x18, by decide⟩, 0xD0), (⟨0x19, by decide⟩, 0x08), (⟨0x28, by decide⟩, 0x28)]
  (List.finRange 4).foldl (fun s i => s.resetRxtx i) ((s.setRxSizes 0x55).setTxSizes 0x55)

def socketOf (address : Nat) (h : 0x400 ≤ address ∧ address ≤ 0x7FF) : Fin 4 := ⟨address / 0x100 - 4, by omega⟩

def readSocketReg (address : Nat) (h : 0x400 ≤ address ∧ address ≤ 0x7FF) (s : Chip) : Byte :=
  let i := socketOf address h
  match address % 0x100 with
  | 0x03 => (s.sockets i).status
  | 0x20 => getIbyte (s.txFree i) 8
  | 0x21 => getIbyte (s.txFree i) 0
  | 0x26 => getIbyte (s.sockets i).snRxRsr 8
  | 0x27 => getIbyte (s.sockets i).snRxRsr 0
  | _ => s.memory ⟨address, by unfold memSize; omega⟩

def writeSocketReg (address : Nat) (h : 0x400 ≤ address ∧ address ≤ 0x7FF) (value : Byte) (bound : Bool) (s : Chip) :
    Option Chip :=
  let a : Index := ⟨address, by unfold memSize; omega⟩
  match address % 0x100 with
  | 0x01 => do
      let s ← if value ≠ 0 then s.handleCommand (socketOf address h) value bound else some s
      some (s.setMem a 0)
  | 0x02 => some (s.setMem a (s.memory a &&& ~~~value))
  | 0x03 | 0x20 | 0x21 | 0x26 | 0x27 => some s
  | _ => some (s.setMem a value)

/-- `IR`, whose low bits mirror the sockets' own. -/
def interrupts (s : Chip) : Byte :=
  (List.finRange 4).foldl
    (fun ir i => if s.memory (reg i 0x02) ≠ 0 then ir ||| (1 <<< i.val) else ir)
    (s.memory ⟨0x15, by decide⟩ &&& 0xE0)

def readAt (address : Nat) (s : Chip) : Byte :=
  if address = 0x0000 then s.mode
  else if address = 0x0015 then s.interrupts
  else if h : 0x400 ≤ address ∧ address ≤ 0x7FF then s.readSocketReg address h
  else s.memory ⟨address % memSize, Nat.mod_lt _ (by decide)⟩

def writeMode (value : Byte) (s : Chip) : Chip :=
  if value &&& 0x80 ≠ 0 then s.reset false else { s with mode := value ||| 0x01 }

def writeAt (address : Nat) (value : Byte) (bound : Bool) (s : Chip) : Option Chip :=
  if address = 0x0000 then some (s.writeMode value)
  else if address = 0x0015 then
    some (s.setMem ⟨0x15, by decide⟩ (s.memory ⟨0x15, by decide⟩ &&& ~~~(value &&& 0xE0)))
  else if address = 0x001A then some (s.setRxSizes value)
  else if address = 0x001B then some (s.setTxSizes value)
  else if h : address ≤ 0x002F then some (s.setMem ⟨address, by unfold memSize; omega⟩ value)
  else if h : 0x400 ≤ address ∧ address ≤ 0x7FF then s.writeSocketReg address h value bound
  else if h : txBase ≤ address ∧ address < memSize then some (s.setMem ⟨address, h.2⟩ value)
  else some s

def autoIncrement (s : Chip) : Chip :=
  if s.mode &&& 0x02 ≠ 0 then
    let next := (s.dataAddr + 1) % 0x10000
    { s with dataAddr := if next = rxBase ∨ next = memSize then next - 0x2000 else next }
  else s

def ioRead (loc : Nat) (s : Chip) : Byte × Chip :=
  match loc % 4 with
  | 0 => (s.mode, s)
  | 1 => (getIbyte s.dataAddr 8, s)
  | 2 => (getIbyte s.dataAddr 0, s)
  | _ => (s.readAt s.dataAddr, s.autoIncrement)

def ioWrite (loc : Nat) (value : Byte) (bound : Bool) (s : Chip) : Option Chip :=
  match loc % 4 with
  | 0 => some (s.writeMode value)
  | 1 => some { s with dataAddr := value.toNat * 0x100 + s.dataAddr % 0x100 }
  | 2 => some { s with dataAddr := s.dataAddr / 0x100 * 0x100 + value.toNat }
  | _ => do
      let s ← s.writeAt s.dataAddr value bound
      some s.autoIncrement

end Chip

end GSSquared.Uthernet
