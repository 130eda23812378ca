/-
The chip and its worker together.
-/
import GSSquared.Uthernet.Effect
import GSSquared.Uthernet.Fifo

set_option linter.all false

namespace GSSquared.Uthernet

open Bits Partial

namespace Chip

/-- The bytes from `TX_RD` up to `TX_WR`, in a window that wraps. -/
def contents (i : Fin 4) (s : Chip) : List Byte :=
  let st := s.sockets i
  let n := if st.transmitSize = 0 then 0 else (s.txWr i + 0x10000 - s.txRd i) % st.transmitSize
  (List.range n).map (fun c => s.byteAt (st.transmitBase + (s.txRd i + c) % st.transmitSize))

def sends (i : Fin 4) (address : Nat) (value : Byte) (s : Chip) : Bool :=
  address == (reg i 0x01).val && value == Cr.send &&
    ((s.sockets i).status == Sr.established || (s.sockets i).status == Sr.closeWait)

def discards (ev : NetEvent) (s : Chip) : Bool :=
  if h : ev.sock < 4 then ev.evt != .macRawRx && ev.gen != (s.sockets ⟨ev.sock, h⟩).gen else true

end Chip

structure Net where
  chip : Chip
  handled : List NetRequest := []
  applied : List NetEvent := []
  sent : Fin 4 → List Byte := fun _ => []
  taken : Fin 4 → Nat := fun _ => 0

inductive Act where
  | write (address : Nat) (value : Byte) (bound : Bool)
  | advance (i : Fin 4) (n : Nat)
  | flush
  | apply
  | reset (powerCycle : Bool)
  | work (st : NetWorker.Step)

namespace Net

open Chip

def renewed (s t : Chip) (i : Fin 4) : Bool := (t.sockets i).gen != (s.sockets i).gen

def step (k : Net) : Act → Option Net
  | .write address value bound => do
      let t ← k.chip.writeAt address value bound
      some
        { k with
          chip := t
          sent := fun i =>
            if renewed k.chip t i then []
            else if k.chip.sends i address value then k.sent i ++ k.chip.contents i
            else k.sent i
          taken := fun i =>
            if renewed k.chip t i || (address == (reg i 0x01).val && value == Cr.recv) then 0 else k.taken i }
  | .advance i n => do
      let t ← k.chip.stepOver i n
      some { k with chip := t, taken := fun j => if j = i then k.taken i + n else k.taken j }
  | .flush => do
      let t ← k.chip.flushAll
      some { k with chip := t }
  | .apply =>
    match k.chip.worker.events with
    | [] => some k
    | ev :: events => do
        let s := { k.chip with worker := { k.chip.worker with events := events } }
        let t ← s.applyEvent ev
        some { k with chip := t, applied := if k.chip.discards ev then k.applied else k.applied ++ [ev] }
  | .reset powerCycle =>
    some { k with chip := k.chip.reset powerCycle, sent := fun _ => [], taken := fun _ => 0 }
  | .work st =>
    some
      { k with
        chip := { k.chip with worker := k.chip.worker.step st }
        handled := k.handled ++ (k.chip.worker.stepRequest st).toList }

def start : Net := { chip := Chip.start }

def frame (k : Net) : List Act := .flush :: List.replicate k.chip.worker.events.length .apply

end Net

end GSSquared.Uthernet
