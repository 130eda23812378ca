import GSSquared.Woz.LoadSafety
import GSSquared.Iwm.Enable
import GSSquared.Iwm.AsyncWrite
import GSSquared.Mmu.IIeMemory
import GSSquared.Cpu.Addresses
import GSSquared.Cpu.Refine
import GSSquared.Cpu.Interrupt
import GSSquared.Serial.AciaRuns
import GSSquared.Serial.SccInterrupts
import GSSquared.Serial.SccRuns
import GSSquared.Mmu.WildPointers
import GSSquared.Block.Forms
import GSSquared.Gpu.Inside
import GSSquared.Rtc.Bram
import GSSquared.Mockingboard.Periods
import GSSquared.Clock.BusLog
import GSSquared.Adb.Inside
import GSSquared.Adb.Keys
import GSSquared.Es5503.SoundGlu
import GSSquared.Display.Inside
import GSSquared.Gpu.LineEnds
import GSSquared.Gpu.FloodFill
import GSSquared.Gpu.RowEdits
import GSSquared.DiskII.Accesses
import GSSquared.Floppy.WriteCells
import GSSquared.Woz.Termination
import GSSquared.Uthernet.Transmit
import GSSquared.Host.RingBuffer
import GSSquared.Mmu.RawAccess
import GSSquared.Clock.OneMHz
import GSSquared.Cpu.Decimal
import GSSquared.Cpu.BlockMove
import GSSquared.Cpu.StoreLoad
import GSSquared.Mmu.BankE1
import GSSquared.Floppy.Writeback
import GSSquared.Woz.Rotation
import GSSquared.Uthernet.Conserve
import GSSquared.Gpu.LockStep
import GSSquared.Uthernet.Snapshot
import GSSquared.Block.Snapshot
import GSSquared.Serial.Downstream
import GSSquared.Display.Latency
import GSSquared.Display.Registers
import GSSquared.Display.Interrupts
import GSSquared.Config.Order
import GSSquared.Floppy.Angle
import GSSquared.Uthernet.SpscRing
import GSSquared.Mouse.Safety
import GSSquared.Config.Consistent
import GSSquared.Thunderclock.KeepsTime
import GSSquared.Woz.Corruption
import GSSquared.Floppy.Wozutil
