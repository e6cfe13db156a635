/-
# DbInventory.Digest.Crc32 -- the CRC-32 checksum

The reflected CRC-32 of IEEE 802.3, one bit at a time: a byte is added to the low end of the
state, and eight shifts divide it out. The state starts with all bits set and is inverted at
the end.
-/

namespace DbInventory.Crc32

/-- The reflected polynomial. -/
def polynomial : UInt32 := 0xEDB88320

/-- Divides out one bit. -/
def stepBit (c : UInt32) : UInt32 :=
  if c &&& 1 = 1 then (c >>> 1) ^^^ polynomial else c >>> 1

/-- Divides out a number of bits. -/
def stepBits : Nat → UInt32 → UInt32
  | 0, c => c
  | n + 1, c => stepBits n (stepBit c)

/-- Takes in one byte. -/
def stepByte (c : UInt32) (b : UInt8) : UInt32 :=
  stepBits 8 (c ^^^ b.toUInt32)

/-- The state after the bytes. -/
def run (c : UInt32) (bytes : List UInt8) : UInt32 :=
  bytes.foldl stepByte c

def start : UInt32 := 0xFFFFFFFF

/-- The checksum of bytes. -/
def checksum (bytes : List UInt8) : UInt32 :=
  run start bytes ^^^ start

theorem run_append (c : UInt32) (s t : List UInt8) : run c (s ++ t) = run (run c s) t :=
  List.foldl_append

end DbInventory.Crc32
