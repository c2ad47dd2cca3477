import Repiu.Engine.SegmentTable
import Repiu.X86.StringInstructions

/-!
# Memory of the guest

The linear memory of the guest, whose first 64 KiB is the image of DOS low memory and in which the
arena lies above that (`guest_memory_access.cpp`, `dos_low_memory.cpp`).
-/

namespace Repiu.Engine

open X86

/-- Where the arena lies, above low memory and in the 32-bit address space, and whether the image of
low memory is there. -/
structure GuestArena where
  runtimeBase : Word
  runtimeSize : Word
  lowValid : Bool
  above_low : kDosLowMemorySize ≤ runtimeBase.toNat
  fits : runtimeBase.toNat + runtimeSize.toNat ≤ 2 ^ 32

namespace GuestArena

/-- `IsGuestRangeReadable`, `IsGuestRangeWritable`. -/
def isGuestRangeReadable (arena : GuestArena) (address : Word) (byteCount : ℕ) : Bool :=
  address ≠ 0 ∧ byteCount ≠ 0 ∧ arena.runtimeBase ≤ address ∧
    address.toNat + byteCount ≤ arena.runtimeBase.toNat + arena.runtimeSize.toNat

/-- A readable range is above low memory and does not wrap. -/
theorem isGuestRangeReadable_bounds {arena : GuestArena} {address : Word} {byteCount : ℕ}
    (h : arena.isGuestRangeReadable address byteCount = true) :
    kDosLowMemorySize ≤ address.toNat ∧ address.toNat + byteCount ≤ 2 ^ 32 := by
  have habove := arena.above_low
  have hfits := arena.fits
  simp only [isGuestRangeReadable, decide_eq_true_eq, BitVec.le_def] at h
  omega

/-- `IsDosLowMemoryRangeValid`. -/
def isDosLowMemoryRangeValid (address : Word) (byteCount : ℕ) : Bool :=
  byteCount ≠ 0 ∧ address.toNat + byteCount ≤ kDosLowMemorySize

/-- `ReadDosLowMemoryUInt8`. -/
def readDosLowMemoryUInt8 (arena : GuestArena) (memory : DataMemory) (address : Word) : Option Byte :=
  if arena.lowValid ∧ isDosLowMemoryRangeValid address 1 then some (memory address) else none

/-- `ReadDosLowMemoryUInt16`. -/
def readDosLowMemoryUInt16 (arena : GuestArena) (memory : DataMemory) (address : Word) : Option (BitVec 16) :=
  if arena.lowValid ∧ isDosLowMemoryRangeValid address 2 then
    some ((memory address).setWidth 16 ||| (memory (address + 1)).setWidth 16 <<< 8)
  else none

/-- `ReadDosLowMemoryUInt32`. -/
def readDosLowMemoryUInt32 (arena : GuestArena) (memory : DataMemory) (address : Word) : Option Word :=
  if arena.lowValid ∧ isDosLowMemoryRangeValid address 4 then
    some ((memory address).setWidth 32 ||| (memory (address + 1)).setWidth 32 <<< 8 |||
      (memory (address + 2)).setWidth 32 <<< 16 ||| (memory (address + 3)).setWidth 32 <<< 24)
  else none

/-- `WriteDosLowMemory`. -/
def writeDosLowMemory (arena : GuestArena) (memory : DataMemory) (address value : Word) (byteCount : ℕ) :
    Option DataMemory :=
  if arena.lowValid ∧ byteCount ≤ 4 ∧ isDosLowMemoryRangeValid address byteCount then
    some fun x =>
      if (x - address).toNat < byteCount then (value >>> ((x - address).toNat * 8)).setWidth 8 else memory x
  else none

end GuestArena

/-- An arena above low memory. -/
def sampleArena : GuestArena where
  runtimeBase := 0x100000
  runtimeSize := 0x10000
  lowValid := true
  above_low := by decide
  fits := by decide

end Repiu.Engine
