import ReplicaChain.Bytes.Slice
import ReplicaChain.Wire.Opcode

/-!
# Storage operations

What a packet asks of the storage is a value, an `Operation`, and a storage engine is a function
that carries operations out.  Nodes work with any engine; the in-memory store is one.
-/

namespace ReplicaChain.Extent

/-- The stored size of one extent, as it is reported for repair. -/
structure Watermark where
  extent : UInt64
  size : UInt64
  deriving DecidableEq, Repr

inductive Operation where
  | createExtent (partition extent : UInt64)
  | write (partition extent : UInt64) (offset : Int64) (bytes : ByteArray)
  | read (partition extent : UInt64) (offset : Int64) (size : UInt32)
  | markDelete (partition extent : UInt64)
  | watermarks (partition : UInt64) (mode : Wire.ExtentMode)
  | notifyRepair (partition : UInt64)
  | command (opcode : Wire.Opcode) (partition : UInt64)
  deriving DecidableEq

inductive Answer where
  | done
  | bytes (body : ByteArray)
  | watermarks (marks : List Watermark)
  deriving DecidableEq

/-- A storage engine with states in `ω`: the outcome of an operation and the state after it. -/
abbrev Engine (ω : Type) :=
  Operation → ω → Except StorageFault Answer × ω

/-! ## Reports -/

def Watermark.report (m : Watermark) : String :=
  "\x7b\"extent_id\":" ++ Text.decimal m.extent.toNat ++ ",\"size\":" ++
    Text.decimal m.size.toNat ++ "\x7d"

def reportWatermarks (marks : List Watermark) : String :=
  "[" ++ String.intercalate "," (marks.map Watermark.report) ++ "]"

/-- The heartbeat report: how many partitions there are and how much of the capacity is used. -/
def reportHeartbeat (partitions : Nat) (used capacity : UInt64) : String :=
  "\x7b\"partitions\":" ++ Text.decimal partitions ++ ",\"used_bytes\":" ++
    Text.decimal used.toNat ++ ",\"capacity_bytes\":" ++ Text.decimal capacity.toNat ++ "\x7d"

def Answer.body : Answer → ByteArray
  | done => ByteArray.empty
  | bytes body => body
  | watermarks marks => (reportWatermarks marks).toUTF8

end ReplicaChain.Extent
