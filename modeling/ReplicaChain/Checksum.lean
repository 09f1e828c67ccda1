/-!
# Frame checksums

Payloads carry a 32-bit cyclic redundancy check: the reflected polynomial `0xEDB88320`, an all-ones
start value and an all-ones final mask.  The register absorbs one byte at a time, and each byte is
eight single-bit shifts, so the checksum of a concatenation is a fold continued over the second
part.
-/

namespace ReplicaChain.Checksum

/-- The generator polynomial, lowest degree in the highest bit. -/
def polynomial : UInt32 :=
  0xEDB88320

/-- Shifts one bit out of the register and feeds the polynomial back when that bit was set. -/
@[inline]
def shift (register : UInt32) : UInt32 :=
  if register &&& 1 = 0 then register >>> 1 else (register >>> 1) ^^^ polynomial

/-- Absorbs one byte, least significant bit first. -/
@[inline]
def absorb (register : UInt32) (byte : UInt8) : UInt32 :=
  shift <| shift <| shift <| shift <| shift <| shift <| shift <| shift <|
    register ^^^ byte.toUInt32

def run (register : UInt32) (b : ByteArray) : UInt32 :=
  b.data.foldl absorb register

def crc32 (b : ByteArray) : UInt32 :=
  run 0xFFFFFFFF b ^^^ 0xFFFFFFFF

theorem run_append (register : UInt32) (a b : ByteArray) :
    run register (a ++ b) = run (run register a) b := by
  simp [run]

@[simp]
theorem crc32_empty : crc32 ByteArray.empty = 0 := by
  simp [crc32, run]

end ReplicaChain.Checksum
