/-
The ES5503 sound chip: 32 oscillators that read a waveform each, and interrupt at its end.
-/
import GSSquared.Lib.Bits

set_option linter.all false

namespace GSSquared.Es5503

open Bits

inductive Mode where
  | free
  | oneshot
  | syncam
  | swap
deriving DecidableEq

def Mode.ofControl (control : Byte) : Mode :=
  match control.getLsbD 2, control.getLsbD 1 with
  | false, false => .free
  | false, true => .oneshot
  | true, false => .syncam
  | true, true => .swap

structure Oscillator where
  freq : BitVec 16 := 0
  wtsize : BitVec 16 := 0
  control : Byte := 0
  vol : Byte := 0
  data : Byte := 0x80
  wavetblpointer : BitVec 32 := 0
  wavetblsize : BitVec 3 := 0
  resolution : BitVec 3 := 0
  accumulator : BitVec 32 := 0
  irqpend : Bool := false

namespace Oscillator

def mode (o : Oscillator) : Mode := Mode.ofControl o.control

def halted (o : Oscillator) : Bool := o.control.getLsbD 0

def halt (o : Oscillator) : Oscillator := { o with control := o.control ||| 0x01 }

def unhalt (o : Oscillator) : Oscillator := { o with control := o.control &&& 0xFE }

def restart (o : Oscillator) : Oscillator := { o.unhalt with accumulator := 0 }

/-- `wavesizes`, `wavemasks`, `accmasks` and `resshifts`. -/
def wavesize (k : BitVec 3) : BitVec 16 := 256#16 <<< k.toNat

def wavemask (k : BitVec 3) : BitVec 32 := (0x1FF00#32 <<< k.toNat) &&& 0x1FF00

def accmask (k : BitVec 3) : BitVec 32 := (256#32 <<< k.toNat) - 1

def resshift (k : BitVec 3) : Nat := 9 + k.toNat

def shift (o : Oscillator) : Int := (resshift o.resolution : Int) - o.wavetblsize.toNat

def waveStart (o : Oscillator) : BitVec 32 := o.wavetblpointer &&& wavemask o.wavetblsize

def channel (o : Oscillator) : Nat := if o.control.getLsbD 4 then 0 else 1

end Oscillator

inductive Touch where
  | oscillator (i : Int)
  | shift (n : Int)
  | mix (start count : Nat)
deriving DecidableEq

/-- `m_output_channels`. -/
def channels : Nat := 2

/-- The mix buffer that `init` allocates, from the clock rate and one enabled oscillator. -/
def mixSize : Nat := 7159090 / 8 / (1 + 2) / 50 * channels * 8

def Touch.InRange : Touch → Prop
  | .oscillator i => 0 ≤ i ∧ i < 32
  | .shift n => 0 ≤ n ∧ n < 32
  | .mix start count => start + count ≤ mixSize

structure ES5503 where
  oscs : Int → Oscillator := fun _ => {}
  oscsEnabled : Nat := 1
  rege0 : Byte := 0xFF
  rege1 : Byte := 2
  channelStrobe : Byte := 0
  wave : Option (BitVec 16 → Byte) := none
  /-- What the IRQ callback was last called with. -/
  line : Bool := false
  log : List Touch := []

namespace ES5503

def touch (t : Touch) (s : ES5503) : ES5503 := { s with log := s.log ++ [t] }

def modify (i : Int) (f : Oscillator → Oscillator) (s : ES5503) : ES5503 :=
  { s with oscs := fun j => if j = i then f (s.oscs j) else s.oscs j }

def firstPending (s : ES5503) : Option Nat := (List.range s.oscsEnabled).find? (fun i => (s.oscs i).irqpend)

def anyPending (s : ES5503) : Bool := s.firstPending.isSome

def scan (s : ES5503) : ES5503 :=
  { s with
    log := s.log ++ (List.range ((s.firstPending.map (· + 1)).getD s.oscsEnabled)).map (fun i => .oscillator i) }

def updateIrqStatus (s : ES5503) : ES5503 :=
  match s.firstPending with
  | some i => { s.scan with line := true, rege0 := (s.rege0 &&& 0x41) ||| (BitVec.ofNat 8 i <<< 1) }
  | none => { s.scan with line := false, rege0 := s.rege0 ||| 0x80 }

def reset (s : ES5503) : ES5503 :=
  updateIrqStatus { s with oscs := fun _ => {}, oscsEnabled := 1, rege0 := 0xFF, rege1 := 2, channelStrobe := 0 }

def restartBelow (i : Int) (s : ES5503) : ES5503 :=
  if (s.oscs i).halted then s.touch (.oscillator i)
  else (s.touch (.oscillator i)).modify i (fun o => { o with accumulator := 0 })

def wrap (o : Oscillator) (shift : Nat) (acc : BitVec 32) : BitVec 32 :=
  acc - ((o.wtsize - 1).setWidth 32 <<< shift)

def interrupt (onum : Nat) (zero : Bool) (newCtrl : Byte) (s : ES5503) : ES5503 :=
  if (s.oscs onum).control.getLsbD 3 = true ∧ ¬ (zero = false ∧ newCtrl.getLsbD 3 = false) then
    (s.modify onum (fun o => { o with irqpend := true })).updateIrqStatus
  else s

def stops (zero : Bool) (o : Oscillator) : Bool := o.mode == .oneshot || o.mode == .swap || zero

def retriggers (onum : Nat) (s : ES5503) : Bool := (s.oscs (onum ^^^ 1 : Nat)).mode == .swap && onum % 2 == 0

def haltAcc (onum : Nat) (zero : Bool) (shift : Nat) (acc : BitVec 32) (s : ES5503) : BitVec 32 :=
  let o := s.oscs onum
  let acc := if stops zero o then acc else wrap o shift acc
  if o.mode ≠ .swap ∧ s.retriggers onum = true then wrap o shift acc else acc

def sync (onum : Nat) (s : ES5503) : ES5503 :=
  if (s.oscs onum).mode = .syncam ∧ onum % 2 = 0 then s.restartBelow ((onum : Int) - 1) else s

def stop (onum : Nat) (zero : Bool) (s : ES5503) : ES5503 :=
  if stops zero (s.oscs onum) then s.modify onum Oscillator.halt else s

def startNext (onum : Nat) (s : ES5503) : ES5503 :=
  if (s.oscs onum).mode = .swap then s.modify (onum ^^^ 1 : Nat) Oscillator.restart
  else if s.retriggers onum then s.modify onum Oscillator.unhalt
  else s

def reach (onum shift : Nat) (s : ES5503) : ES5503 :=
  ((s.touch (.oscillator onum)).touch (.oscillator (onum ^^^ 1 : Nat))).touch (.shift shift)

def haltOscs (onum : Nat) (zero : Bool) (shift : Nat) (s : ES5503) : ES5503 :=
  (((s.reach onum shift).sync onum).stop onum zero).startNext onum

/-- `halt_osc`, at a zero byte or at the end: the accumulator, and what is left. -/
def haltOsc (onum : Nat) (zero : Bool) (shift : Nat) (newCtrl : Byte) (acc : BitVec 32) (s : ES5503) :
    BitVec 32 × ES5503 :=
  (s.haltAcc onum zero shift acc, (s.haltOscs onum zero shift).interrupt onum zero newCtrl)

structure Voice where
  osc : Nat
  chan : Nat
  waveStart : BitVec 32
  wtsize : BitVec 16
  freq : BitVec 16
  vol : Byte
  shift : Nat
  sizemask : BitVec 32
  mode : Mode
  /-- The highest enabled oscillator is three times as loud. -/
  last : Bool

structure Run where
  acc : BitVec 32
  data : Byte
  ctrl : Byte
  mixp : Nat
  mix : Nat → Int
  chip : ES5503

def readWaveByte (wave : BitVec 16 → Byte) (address : BitVec 32) : Byte := wave (address.setWidth 16)

namespace Voice

def place (v : Voice) (acc : BitVec 32) : BitVec 32 := acc >>> v.shift

def byte (wave : BitVec 16 → Byte) (v : Voice) (acc : BitVec 32) : Byte :=
  readWaveByte wave ((v.place acc &&& v.sizemask) + v.waveStart)

def mixIn (v : Voice) (r : Run) : Run :=
  { r with
    mix := fun i => if i = r.mixp then r.mix i + (if v.last then 3 else 1) * (r.data.toInt * v.vol.toNat) else r.mix i
    chip := r.chip.touch (.mix r.mixp 1) }

/-- An odd oscillator in sync/AM mode sets the volume of the next one. -/
def modulate (v : Voice) (r : Run) : Run :=
  if v.osc < 31 then
    let chip := r.chip.touch (.oscillator ((v.osc : Int) + 1))
    { r with
      chip :=
        if (chip.oscs ((v.osc : Int) + 1)).halted then chip
        else chip.modify ((v.osc : Int) + 1) (fun o => { o with vol := r.data ^^^ 0x80 }) }
  else r

def ending (zero : Bool) (v : Voice) (r : Run) : Run :=
  let (acc, chip) := r.chip.haltOsc v.osc zero v.shift (r.chip.oscs v.osc).control r.acc
  { r with acc := acc, chip := chip, ctrl := (chip.oscs v.osc).control }

/-- A byte is read. -/
def fetch (wave : BitVec 16 → Byte) (v : Voice) (r : Run) : Run :=
  { r with
    acc := r.acc + v.freq.setWidth 32
    data := v.byte wave r.acc ^^^ 0x80
    chip := { (r.chip.touch (.shift v.shift)) with channelStrobe := (r.ctrl >>> 4) &&& 0x0F } }

/-- And heard. -/
def play (v : Voice) (r : Run) : Run :=
  let r := if v.mode = .syncam ∧ v.osc % 2 = 1 then v.modulate r else v.mixIn r
  { r with mixp := r.mixp + channels }

def sample (wave : BitVec 16 → Byte) (v : Voice) (r : Run) : Run :=
  if v.byte wave r.acc = 0 then v.ending true (v.fetch wave r)
  else
    let played := v.play (v.fetch wave r)
    if v.wtsize.setWidth 32 ≤ v.place r.acc then v.ending false played else played

def samples (wave : BitVec 16 → Byte) (v : Voice) : Nat → Run → Run
  | 0, r => r
  | n + 1, r =>
    let r := v.sample wave r
    if (r.chip.oscs v.osc).halted then { r with ctrl := (r.chip.oscs v.osc).control } else v.samples wave n r

end Voice

def voice (osc chan : Nat) (s : ES5503) : Voice :=
  let o := s.oscs osc
  { osc := osc, chan := chan, waveStart := o.waveStart, wtsize := o.wtsize - 1, freq := o.freq, vol := o.vol
    shift := o.shift.toNat, sizemask := Oscillator.accmask o.wavetblsize, mode := o.mode
    last := osc + 1 == s.oscsEnabled }

def renderOsc (wave : BitVec 16 → Byte) (n : Nat) (a : ES5503 × (Nat → Int)) (turn : Nat × Nat) :
    ES5503 × (Nat → Int) :=
  let (chan, osc) := turn
  let s := a.1.touch (.oscillator osc)
  let o := s.oscs osc
  if o.halted = false ∧ o.channel = chan then
    let s := s.touch (.shift o.shift)
    let r := (s.voice osc chan).samples wave n
      { acc := o.accumulator, data := 0x80, ctrl := o.control, mixp := chan, mix := a.2, chip := s }
    (r.chip.modify osc (fun o => { o with control := r.ctrl, accumulator := r.acc, data := r.data ^^^ 0x80 }), r.mix)
  else (s, a.2)

def turns (enabled : Nat) : List (Nat × Nat) :=
  (List.range channels).flatMap (fun chan => (List.range enabled).map (fun osc => (chan, osc)))

def clamp (x : Int) : Int :=
  let x := x.tdiv 8
  if 32767 < x then 32767 else if x < -32768 then -32768 else x

def clearMix (n : Nat) (s : ES5503) : ES5503 := s.touch (.mix 0 (n * channels))

/-- `generate_samples`: the chip and the samples, both channels in turn. -/
def generateSamples (n : Nat) (s : ES5503) : ES5503 × List Int :=
  match s.wave with
  | none => (s, List.replicate (n * channels) 0)
  | some wave =>
    let a := (turns s.oscsEnabled).foldl (renderOsc wave n) (s.clearMix n, fun _ => 0)
    (a.1.clearMix n, (List.range (n * channels)).map (fun i => clamp (a.2 i)))

def oscOf (offset : Byte) : Nat := (offset &&& 0x1F).toNat

def assertLine (s : ES5503) : ES5503 := { s.scan with line := s.anyPending }

def acknowledge (i : Nat) (s : ES5503) : ES5503 :=
  { s.modify i (fun o => { o with irqpend := false }) with rege0 := (BitVec.ofNat 8 i <<< 1) ||| 0x80 }

def readStatus (s : ES5503) : Byte × ES5503 :=
  let lowered := { s.scan with line := false }
  match s.firstPending with
  | some i => ((BitVec.ofNat 8 i <<< 1) ||| 0x41, (lowered.acknowledge i).assertLine)
  | none => (s.rege0 ||| 0x41, lowered.assertLine)

/-- A register of an oscillator: `offset & 0xe0` says which. -/
def readOsc (o : Oscillator) (offset : Byte) : Byte :=
  match (offset >>> 5).toNat with
  | 0 => o.freq.setWidth 8
  | 1 => (o.freq >>> 8).setWidth 8
  | 2 => o.vol
  | 3 => o.data
  | 4 => (o.wavetblpointer >>> 8).setWidth 8
  | 5 => o.control
  | _ =>
    (if o.wavetblpointer.getLsbD 16 then 0x40 else 0) ||| (o.wavetblsize.setWidth 8 <<< 3) |||
      o.resolution.setWidth 8

/-- `read`, without the A/D converter. -/
def read (offset : Byte) (s : ES5503) : Byte × ES5503 :=
  if offset.toNat < 0xE0 then (readOsc (s.oscs (oscOf offset)) offset, s.touch (.oscillator (oscOf offset)))
  else if offset = 0xE0 then s.readStatus
  else if offset = 0xE1 then (s.rege1, s)
  else (0, s)

def keyOn (osc : Nat) (data : Byte) (s : ES5503) : ES5503 :=
  if (s.oscs osc).halted = true ∧ data.getLsbD 0 = false then s.modify osc (fun o => { o with accumulator := 0 }) else s

/-- A running one that is halted by a write ends there, if the write has bit 1 too. -/
def cpuHalt (osc : Nat) (data : Byte) (s : ES5503) : ES5503 :=
  if (s.oscs osc).halted = false ∧ data.getLsbD 0 = true ∧ data.getLsbD 1 = true then
    let (acc, s) := s.haltOsc osc false (Oscillator.resshift (s.oscs osc).resolution) data (s.oscs osc).accumulator
    s.modify osc (fun o => { o with accumulator := acc })
  else s

def writeControl (osc : Nat) (data : Byte) (s : ES5503) : ES5503 :=
  ((s.keyOn osc data).cpuHalt osc data).modify osc (fun o => { o with control := data })

def setSize (data : Byte) (o : Oscillator) : Oscillator :=
  { o with
    wavetblpointer := if data.getLsbD 6 then o.wavetblpointer ||| 0x10000 else o.wavetblpointer &&& 0xFFFF
    wavetblsize := (data >>> 3).setWidth 3
    wtsize := Oscillator.wavesize ((data >>> 3).setWidth 3)
    resolution := data.setWidth 3 }

def writeOsc (osc : Nat) (offset data : Byte) (s : ES5503) : ES5503 :=
  match (offset >>> 5).toNat with
  | 0 => s.modify osc (fun o => { o with freq := (o.freq &&& 0xFF00) ||| data.setWidth 16 })
  | 1 => s.modify osc (fun o => { o with freq := (o.freq &&& 0x00FF) ||| (data.setWidth 16 <<< 8) })
  | 2 => s.modify osc (fun o => { o with vol := data })
  | 3 => s
  | 4 => s.modify osc (fun o => { o with wavetblpointer := data.setWidth 32 <<< 8 })
  | 5 => s.writeControl osc data
  | _ => s.modify osc (setSize data)

def writeEnable (data : Byte) (s : ES5503) : ES5503 :=
  { s with rege1 := data, oscsEnabled := ((data >>> 1) &&& 0x1F).toNat + 1 }

def write (offset data : Byte) (s : ES5503) : ES5503 :=
  if offset.toNat < 0xE0 then (s.touch (.oscillator (oscOf offset))).writeOsc (oscOf offset) offset data
  else if offset = 0xE1 then s.writeEnable data
  else s

end ES5503

end GSSquared.Es5503
