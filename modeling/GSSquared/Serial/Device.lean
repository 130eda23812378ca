/-
What a serial chip and the device at the other end of the line say to each other.
-/
import GSSquared.Lib.Bits

set_option linter.all false

namespace GSSquared.Serial

open Bits

inductive MessageType where
  | data | breakOn | breakOff | close | shutdown | line | modemStatus | modemCtl
deriving DecidableEq

structure SerialMessage where
  type : MessageType
  data : Nat
deriving DecidableEq

/-- What a `SerialQueue` holds at most: one place of its ring stays empty. -/
def queueDepth : Nat := 127

/-- `send`: a full queue drops the message. -/
def send (q : List SerialMessage) (msg : SerialMessage) : List SerialMessage × Bool :=
  if q.length < queueDepth then (q ++ [msg], true) else (q, false)

inductive Parity where
  | none | even | odd | mark | space
deriving DecidableEq

structure HostSerialLine where
  baud : Nat
  dataBits : Nat
  stopBits : Nat
  parity : Parity

def Parity.code : Parity → Nat
  | .none => 0
  | .even => 1
  | .odd => 2
  | .mark => 3
  | .space => 4

/-- `host_serial_pack_line`. -/
def packLine (line : HostSerialLine) : Nat :=
  line.baud ||| (line.dataBits % 16) <<< 32 ||| (line.stopBits % 16) <<< 36 ||| line.parity.code <<< 40

end GSSquared.Serial
