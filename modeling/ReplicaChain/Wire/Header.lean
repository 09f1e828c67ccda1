import ReplicaChain.Bytes.BigEndian
import ReplicaChain.Bytes.Slice
import ReplicaChain.Wire.Opcode

/-!
# Packet headers

A header is 65 bytes: five single bytes, three 32-bit words and six 64-bit words, all big-endian
and without gaps.  Parsing checks the length, the magic byte, the extent mode and the result, in
this order; every other bit pattern is meaningful, so a parsed header writes back to its own bytes.
-/

namespace ReplicaChain.Wire

/-- The fixed part of a packet. -/
structure Header where
  magic : UInt8
  extentMode : ExtentMode
  opcode : Opcode
  result : ResultCode
  /-- How many followers are still to receive the packet; negative counts are malformed. -/
  remaining : Int8
  /-- Checksum of the payload. -/
  crc : UInt32
  /-- Payload size, or the number of bytes asked for by a read that carries no payload. -/
  size : UInt32
  argumentSize : UInt32
  partition : UInt64
  extent : UInt64
  offset : Int64
  requestId : Int64
  /-- Nanoseconds since the epoch at which the sender made the packet. -/
  startTime : Int64
  kernelOffset : UInt64
  deriving DecidableEq, Repr

namespace Header

def magicByte : UInt8 :=
  0xFF

def byteSize : Nat :=
  65

def blank : Header where
  magic := magicByte
  extentMode := .normal
  opcode := .ok
  result := .unexecuted
  remaining := 0
  crc := 0
  size := 0
  argumentSize := 0
  partition := 0
  extent := 0
  offset := 0
  requestId := 0
  startTime := 0
  kernelOffset := 0

instance : Inhabited Header :=
  ⟨blank⟩

/-- Whether the declared size is a request for bytes to come: an unanswered read has no payload. -/
def defersPayload (h : Header) : Bool :=
  h.opcode.isRead && h.result = .unexecuted

/-- The number of payload bytes that follow the header and the argument. -/
def payloadSize (h : Header) : Nat :=
  if h.defersPayload then 0 else h.size.toNat

def encodeList (h : Header) : List UInt8 :=
  [h.magic, h.extentMode.toByte, h.opcode.toByte, h.result.toByte, h.remaining.toUInt8] ++
    Bytes.BigEndian.encode 4 h.crc.toNat ++
    Bytes.BigEndian.encode 4 h.size.toNat ++
    Bytes.BigEndian.encode 4 h.argumentSize.toNat ++
    Bytes.BigEndian.encode 8 h.partition.toNat ++
    Bytes.BigEndian.encode 8 h.extent.toNat ++
    Bytes.BigEndian.encode 8 h.offset.toUInt64.toNat ++
    Bytes.BigEndian.encode 8 h.requestId.toUInt64.toNat ++
    Bytes.BigEndian.encode 8 h.startTime.toUInt64.toNat ++
    Bytes.BigEndian.encode 8 h.kernelOffset.toNat

def encode (h : Header) : ByteArray :=
  h.encodeList.toByteArray

@[simp]
theorem length_encodeList (h : Header) : h.encodeList.length = byteSize := by
  simp [encodeList, byteSize]

@[simp]
theorem size_encode (h : Header) : h.encode.size = byteSize := by
  simp [encode]

/-- The big-endian word of `w` bytes at index `i`. -/
def wordAt (bs : List UInt8) (i w : Nat) : Nat :=
  Bytes.BigEndian.decode ((bs.drop i).take w)

def byteAt (bs : List UInt8) (i : Nat) : UInt8 :=
  bs[i]?.getD 0

/-- Reads a header off the front of a byte list that is long enough. -/
def ofList (bs : List UInt8) : Except Fault Header :=
  if byteAt bs 0 ≠ magicByte then .error (.invalidMagic (byteAt bs 0))
  else
    match ExtentMode.ofByte (byteAt bs 1) with
    | .error e => .error e
    | .ok extentMode =>
      match ResultCode.ofByte (byteAt bs 3) with
      | .error e => .error e
      | .ok result =>
        .ok {
          magic := magicByte
          extentMode
          opcode := .ofByte (byteAt bs 2)
          result
          remaining := (byteAt bs 4).toInt8
          crc := .ofNat (wordAt bs 5 4)
          size := .ofNat (wordAt bs 9 4)
          argumentSize := .ofNat (wordAt bs 13 4)
          partition := .ofNat (wordAt bs 17 8)
          extent := .ofNat (wordAt bs 25 8)
          offset := (UInt64.ofNat (wordAt bs 33 8)).toInt64
          requestId := (UInt64.ofNat (wordAt bs 41 8)).toInt64
          startTime := (UInt64.ofNat (wordAt bs 49 8)).toInt64
          kernelOffset := .ofNat (wordAt bs 57 8) }

def parse (b : ByteArray) : Except Fault Header :=
  if b.size < byteSize then .error (.protocol (.shortHeader byteSize b.size))
  else ofList (Bytes.take byteSize b).data.toList

end Header

end ReplicaChain.Wire
