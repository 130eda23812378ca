/-
A chip saved and restored.
-/
import GSSquared.Lib.Reader
import GSSquared.Uthernet.Effect
import GSSquared.Uthernet.Layout

set_option linter.all false

namespace GSSquared.Uthernet

open Bits Wire Reader Partial

def SocketState.savedPending (st : SocketState) : List Byte := st.rxPending.take (st.rxPending.length % 2 ^ 32)

def SocketState.bytes (st : SocketState) : List Byte :=
  u16le st.snRxWr ++ (u16le st.snRxRsr ++ ([st.status, BitVec.ofNat 8 st.headerSize] ++
    (u32le st.gen ++ (u32le st.rxPending.length ++ st.savedPending))))

/-- `Saved`, a socket in the file. -/
structure Saved where
  wr : Nat := 0
  rsr : Nat := 0
  status : Byte := 0
  header : Nat := 0
  gen : Nat := 0
  pending : List Byte := []
deriving DecidableEq

def maxPending : Nat := 0x100000

def readSaved : Reader Saved := do
  let wr ← block 2
  let rsr ← block 2
  let b ← block 2
  let g ← block 4
  let plen ← block 4
  if maxPending < le plen then refuse
  else do
    let pending ← block (le plen)
    pure { wr := le wr, rsr := le rsr, status := b.getD 0 0, header := (b.getD 1 0).toNat, gen := le g, pending := pending }

def readSockets : List (Fin 4) → Reader (Fin 4 → Saved)
  | [] => pure fun _ => {}
  | i :: is => do
      let sv ← readSaved
      let rest ← readSockets is
      pure fun j => if j = i then sv else rest j

structure Image where
  hdr : List Byte
  memory : Index → Byte
  saved : Fin 4 → Saved

def readImage : Reader Image := do
  let hdr ← block 4
  let mem ← block memSize
  let saved ← readSockets (List.finRange 4)
  pure { hdr := hdr, memory := fun a => mem.getD a.val 0, saved := saved }

namespace Chip

/-- `A2GSPU_snapshot`. -/
def snapshot (slot : Byte) (s : Chip) : List Byte :=
  [slot, s.mode, getIbyte s.dataAddr 8, getIbyte s.dataAddr 0] ++
    ((List.finRange memSize).map s.memory ++ (List.finRange 4).flatMap (fun i => (s.sockets i).bytes))

def connected (status : Byte) : Bool := status == Sr.synSent || status == Sr.established || status == Sr.closeWait

/-- The host's side of socket `i`, dropped for a generation that neither side has had. -/
def takeOver (i : Fin 4) (sv : Saved) (s : Chip) : Chip :=
  (s.setSocket i { s.sockets i with gen := max (s.sockets i).gen sv.gen }).closeHost i .closeHost

def putSaved (i : Fin 4) (sv : Saved) (s : Chip) : Chip :=
  s.setSocket i
    { s.sockets i with
      snRxWr := sv.wr, snRxRsr := sv.rsr, status := sv.status, headerSize := sv.header, rxPending := sv.pending }

def loseConnection (i : Fin 4) (s : Chip) : Chip :=
  let s := ((s.setStatus i Sr.closed).setHeaderSize i).raiseIr i Ir.discon
  s.setSocket i { s.sockets i with rxPending := [] }

/-- A turn of the loop over the sockets; `bound` says whether the host gives the port. -/
def restoreSocket (i : Fin 4) (sv : Saved) (bound : Bool) (s : Chip) : Chip :=
  let s := (s.takeOver i sv).putSaved i sv
  if connected sv.status then s.loseConnection i
  else if sv.status = Sr.init then s.post { msg := .openTcp, sock := i, gen := (s.sockets i).gen }
  else if sv.status = Sr.listen then (s.setStatus i Sr.init).listenSocket i bound
  else if sv.status = Sr.udp then
    s.post { msg := .openUdp, sock := i, gen := (s.sockets i).gen, localPort := s.be16 i 0x04 0x05 }
  else s

def restoreMemory (im : Image) (s : Chip) : Chip :=
  let s := { s with
    mode := im.hdr.getD 1 0 ||| 0x01
    dataAddr := (im.hdr.getD 2 0).toNat * 0x100 + (im.hdr.getD 3 0).toNat
    memory := im.memory }
  (s.setRxSizes (im.memory rmsr)).setTxSizes (im.memory tmsr)

def restoreImage (im : Image) (bound : Fin 4 → Bool) (s : Chip) : Chip :=
  (List.finRange 4).foldl (fun s i => s.restoreSocket i (im.saved i) (bound i)) (s.restoreMemory im)

/-- `A2GSPU_restore`: whether the file is taken, the chip, and how many connections are lost. -/
def restore (f : List Byte) (bound : Fin 4 → Bool) (s : Chip) : Bool × Chip × Nat :=
  match readImage f with
  | some (im, _) =>
    (true, s.restoreImage im bound, (List.finRange 4).countP (fun i => connected (im.saved i).status))
  | none => (false, s, 0)

end Chip

def SocketState.plen (st : SocketState) : Nat := st.rxPending.length % 2 ^ 32

def SocketState.saved (st : SocketState) : Saved :=
  { wr := st.snRxWr, rsr := st.snRxRsr, status := st.status, header := st.headerSize, gen := st.gen % 2 ^ 32,
    pending := st.savedPending }

namespace Chip

def image (slot : Byte) (s : Chip) : Image :=
  { hdr := [slot, s.mode, getIbyte s.dataAddr 8, getIbyte s.dataAddr 0], memory := s.memory,
    saved := fun i => (s.sockets i).saved }

def windowsOf (st : SocketState) : Nat × Nat × Nat × Nat :=
  (st.transmitBase, st.transmitSize, st.receiveBase, st.receiveSize)

/-- What a restore touches for socket `i`: the socket, its `Sn_IR`, its credit, and the requests. -/
structure Beside (i : Fin 4) (s t : Chip) : Prop where
  mode : t.mode = s.mode
  dataAddr : t.dataAddr = s.dataAddr
  memory : ∀ a, a ≠ reg i 0x02 → t.memory a = s.memory a
  sockets : ∀ j, j ≠ i → t.sockets j = s.sockets j
  credit : ∀ j, j ≠ i → t.worker.rxCredit j = s.worker.rxCredit j
  windows : windowsOf (t.sockets i) = windowsOf (s.sockets i)

section

variable {s t u : Chip} {i : Fin 4}

theorem Beside.refl (i : Fin 4) (s : Chip) : Beside i s s :=
  ⟨rfl, rfl, fun _ _ => rfl, fun _ _ => rfl, fun _ _ => rfl, rfl⟩

theorem Beside.trans (h : Beside i s t) (h' : Beside i t u) : Beside i s u :=
  ⟨h'.mode.trans h.mode, h'.dataAddr.trans h.dataAddr, fun a ha => (h'.memory a ha).trans (h.memory a ha),
    fun j hj => (h'.sockets j hj).trans (h.sockets j hj), fun j hj => (h'.credit j hj).trans (h.credit j hj),
    h'.windows.trans h.windows⟩

variable (i : Fin 4)

/-- The bits raised in `Sn_IR` for a socket restored. -/
def irOf (status : Byte) (bound : Bool) : Byte :=
  if connected status then Ir.discon
  else if status = Sr.listen ∧ bound = false then Ir.timeout
  else 0

def statusOf (status : Byte) (bound : Bool) : Byte :=
  if connected status ∨ status = Sr.listen ∧ bound = false then Sr.closed else status

end

/-- The chip that a restore starts from: `start` has reset it, and its worker has at most the
requests of that reset still to take. -/
def Fresh (t : Chip) : Prop := ∃ worker : NetWorker, worker.requests.length ≤ 4 ∧ t = { start with worker := worker }

/-- What is asked of a chip `t` restored from a snapshot of `s`. -/
structure Reproduced (bound : Fin 4 → Bool) (s t : Chip) : Prop where
  mode : t.mode = s.mode
  dataAddr : t.dataAddr = s.dataAddr
  memory : ∀ a, (∀ i, a ≠ reg i 0x02) → t.memory a = s.memory a
  ir : ∀ i, t.memory (reg i 0x02) = s.memory (reg i 0x02) ||| irOf (s.sockets i).status (bound i)
  windows : ∀ i, windowsOf (t.sockets i) = windowsOf (s.sockets i)
  offsets : ∀ i, (t.sockets i).snRxWr = (s.sockets i).snRxWr ∧ (t.sockets i).snRxRsr = (s.sockets i).snRxRsr
  lost : ∀ i, connected (s.sockets i).status = true → (t.sockets i).status = Sr.closed
  credit : ∀ i, (t.sockets i).status = Sr.init ∨ (t.sockets i).status = Sr.listen →
    t.worker.rxCredit i = (t.sockets i).receiveSize - 1

def Within (t : Chip) : Prop :=
  ∀ i, (t.sockets i).snRxWr < (t.sockets i).receiveSize ∧ (t.sockets i).snRxRsr < (t.sockets i).receiveSize

/-- What a file says of the offsets is within the windows of its `RMSR`. -/
def Ranged (f : List Byte) : Prop :=
  ∀ im rest, readImage f = some (im, rest) → ∀ i,
    (im.saved i).wr < (window rxBase memSize (im.memory rmsr) i).2 ∧
      (im.saved i).rsr < (window rxBase memSize (im.memory rmsr) i).2

end Chip

end GSSquared.Uthernet
