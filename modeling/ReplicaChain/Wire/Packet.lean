import ReplicaChain.Buffer
import ReplicaChain.Checksum
import ReplicaChain.Wire.Header
import ReplicaChain.Wire.Verdict

/-!
# Packets

A packet is a header, an argument and a buffer of data.  Requests and replies are both packets: a
reply is made from its request by setting the result, dropping the argument and replacing the
payload, so everything that identifies the request stays as it was.

The three parts may disagree.  The header declares how much of the argument and of the data belongs
to the packet; `Packet.payload` is what the data buffer really holds of the declared size.
-/

namespace ReplicaChain.Wire

structure Packet where
  header : Header
  argument : ByteArray
  data : Buffer
  deriving DecidableEq

namespace Packet

/-! ## Making packets -/

def blank (now : Int64) : Packet :=
  ⟨{ Header.blank with startTime := now }, ByteArray.empty, .empty⟩

def withFollowers (argument : ByteArray) (remaining : Int8) (p : Packet) : Packet :=
  { p with
    header := {
      p.header with
      argumentSize := .ofNat (min argument.size 0xFFFFFFFF)
      remaining }
    argument }

/-- Replaces the payload, with its size and checksum. -/
def setPayload (bytes : ByteArray) (p : Packet) : Packet :=
  { p with
    header := {
      p.header with
      size := .ofNat (min bytes.size 0xFFFFFFFF)
      crc := Checksum.crc32 bytes }
    data := .detached bytes }

/-- A request made at `now` under a fresh request id. -/
def request (now id : Int64) (opcode : Opcode) (partition : UInt64) : Packet :=
  let p := blank now
  { p with header := { p.header with opcode, partition, requestId := id } }

def getAllWatermarks (now id : Int64) (partition : UInt64) (extentMode : ExtentMode) : Packet :=
  let p := request now id .getAllWaterMark partition
  { p with header := { p.header with extentMode } }

def notifyExtentRepair (now id : Int64) (partition : UInt64) : Packet :=
  request now id .notifyExtentRepair partition

def createExtent (now id : Int64) (partition extent : UInt64) : Packet :=
  let p := request now id .createExtent partition
  { p with header := { p.header with extent } }

def range (now id : Int64) (opcode : Opcode) (partition extent : UInt64) (offset : Int64)
    (size : UInt32) : Packet :=
  let p := request now id opcode partition
  { p with header := { p.header with extent, offset, size } }

def read (now id : Int64) (partition extent : UInt64) (offset : Int64) (size : UInt32) : Packet :=
  range now id .read partition extent offset size

/-- Asks for stored bytes on behalf of a replica that repairs itself. -/
def extentRepairRead (now id : Int64) (partition extent : UInt64) (offset : Int64)
    (size : UInt32) : Packet :=
  range now id .extentRepairRead partition extent offset size

def write (now id : Int64) (partition extent : UInt64) (offset : Int64)
    (bytes : ByteArray) : Packet :=
  let p := request now id .write partition
  setPayload bytes { p with header := { p.header with extent, offset } }

/-- The frame of a streamed answer to request `id`, still without its bytes. -/
def streamReply (now id : Int64) (partition extent : UInt64) : Packet :=
  let p := blank now
  { p with header := { p.header with opcode := .ok, requestId := id, partition, extent } }

/-! ## Looking at packets -/

/-- The declared payload, as far as the data buffer holds it. -/
def payload (p : Packet) : ByteArray :=
  Bytes.take p.header.size.toNat p.data.bytes

def isError (p : Packet) : Bool :=
  p.header.result ≠ .ok

def verifyChecksum (p : Packet) : Except Fault Unit :=
  let actual := Checksum.crc32 p.payload
  if actual = p.header.crc then .ok () else .error (.checksum p.header.crc actual)

def logId (p : Packet) : String :=
  let h := p.header
  "Req(" ++ Text.signed h.requestId.toInt ++ ")_Partition(" ++ Text.decimal h.partition.toNat ++
    ")_Extent(" ++ Text.decimal h.extent.toNat ++ ")_ExtentOffset(" ++
    Text.signed h.offset.toInt ++ ")_Size(" ++ Text.decimal h.size.toNat ++ ")_Op(" ++
    h.opcode.text ++ ")_ResultCode(" ++ h.result.name ++ ")"

def errorMessage (p : Packet) : String :=
  "req(" ++ p.logId ++ ") err(" ++ Text.Utf8.lossy p.payload ++ ")"

/-! ## Replies -/

/-- The reply to a packet: its result and body, without an argument. -/
def reply (result : ResultCode) (body : ByteArray) (p : Packet) : Packet :=
  setPayload body
    { p with
      header := { p.header with result, argumentSize := 0 }
      argument := ByteArray.empty }

def replyWith (body : ByteArray) (p : Packet) : Packet :=
  p.reply .ok body

def replyOk (p : Packet) : Packet :=
  p.replyWith ByteArray.empty

/-- The result code that answers a fault met during `action`, as it goes over the wire. -/
def faultCode (action : Action) (fault : Fault) (p : Packet) : ResultCode :=
  (verdict action fault p.header.opcode).forWire

def replyFault (action : Action) (fault : Fault) (p : Packet) : Packet :=
  p.reply (p.faultCode action fault) (Bytes.ofText (errorBody action fault))

end Packet

end ReplicaChain.Wire
