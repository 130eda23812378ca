/-
What the chip and its worker tell each other.
-/
import GSSquared.Lib.Bits
import GSSquared.Lib.Channel

set_option linter.all false

namespace GSSquared.Uthernet

open Bits

attribute [scoped instance] neZero_four neZero_page

namespace Sr

def closed : Byte := 0x00
def init : Byte := 0x13
def listen : Byte := 0x14
def synSent : Byte := 0x15
def established : Byte := 0x17
def closeWait : Byte := 0x1C
def udp : Byte := 0x22
def ipRaw : Byte := 0x32
def macRaw : Byte := 0x42

end Sr

namespace Mr

def closed : Byte := 0x00
def tcp : Byte := 0x01
def udp : Byte := 0x02
def ipRaw : Byte := 0x03
def macRaw : Byte := 0x04
def protoMask : Byte := 0x0F
def macFilter : Byte := 0x40

end Mr

namespace Cr

def open' : Byte := 0x01
def listen : Byte := 0x02
def connect : Byte := 0x04
def discon : Byte := 0x08
def close : Byte := 0x10
def send : Byte := 0x20
def recv : Byte := 0x40
def sendKeep : Byte := 0x22

end Cr

namespace Ir

def con : Byte := 0x01
def discon : Byte := 0x02
def recv : Byte := 0x04
def timeout : Byte := 0x08
def sendOk : Byte := 0x10

end Ir

def memSize : Nat := 0x8000
def txBase : Nat := 0x4000
def rxBase : Nat := 0x6000
def ethMinimumSize : Nat := 14

structure Ip where
  b0 : Byte := 0
  b1 : Byte := 0
  b2 : Byte := 0
  b3 : Byte := 0
deriving DecidableEq

def Ip.bytes (ip : Ip) : List Byte := [ip.b0, ip.b1, ip.b2, ip.b3]

inductive NetMsg where
  | openTcp
  | openUdp
  | connect
  | close
  | closeHost
  | sendTcp
  | sendUdp
  | macRawTx
  | ipRawTx
  | adoptListen
deriving DecidableEq

inductive NetEvt where
  | none
  | status
  | rxTcp
  | rxUdp
  | macRawRx
  | ipRawRx
  | sendDone
deriving DecidableEq

inductive NetCause where
  | none
  | connected
  | remoteClosed
  | reset
  | failed
deriving DecidableEq

structure NetRequest where
  msg : NetMsg
  sock : Fin 4
  gen : Nat
  localPort : Nat := 0
  destIp : Ip := {}
  destPort : Nat := 0
  payload : List Byte := []
deriving DecidableEq

structure NetEvent where
  evt : NetEvt := .none
  sock : Nat := 0
  status : Byte := 0
  gen : Nat := 0
  cause : NetCause := .none
  hostErr : Int := 0
  srcIp : Ip := {}
  srcPort : Nat := 0
  payload : List Byte := []
deriving DecidableEq

def ringCapacity : Nat := 63

end GSSquared.Uthernet
