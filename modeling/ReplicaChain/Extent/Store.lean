import ReplicaChain.Bytes.Slice
import ReplicaChain.Extent.Operation
import Std.Data.ExtTreeMap

/-!
# The in-memory extent store

A store maps partitions to extents and extents to bytes.  An extent has no holes: a write starts at
or before its end.  A deleted extent leaves a tombstone, so that its number is not used again while
the partition exists, and an offline partition refuses everything that touches an extent.

All extents share one capacity.  The store keeps the number of used bytes beside the extents and
checks a write against it before storing anything, so a refused operation changes nothing: every
operation below either yields a new store or a fault and no store at all.
-/

namespace ReplicaChain.Extent

/-! ## Extents and partitions -/

/-- The bytes of an extent, or the tombstone of a deleted one. -/
structure State where
  content : ByteArray
  deleted : Bool
  deriving DecidableEq

def State.blank : State :=
  ⟨ByteArray.empty, false⟩

def State.tombstone : State :=
  ⟨ByteArray.empty, true⟩

structure Partition where
  extents : Std.ExtTreeMap UInt64 State
  offline : Bool
  repairRequests : UInt64
  deriving DecidableEq

def Partition.blank : Partition :=
  ⟨∅, false, 0⟩

/-- How many low extent numbers are reserved for tiny extents. -/
def tinyExtentCount : UInt64 :=
  64

def isTiny (extent : UInt64) : Bool :=
  1 ≤ extent && extent ≤ tinyExtentCount

/-- Whether an extent belongs to the half that a mode selects; no mode selects every extent. -/
def isSelected (mode : Option Wire.ExtentMode) (extent : UInt64) : Bool :=
  match mode with
  | some .tiny => isTiny extent
  | some .normal => !isTiny extent
  | none => true

namespace Partition

/-- The extent with a given number, if it can be worked on. -/
def live (extent : UInt64) (p : Partition) : Except StorageFault State :=
  if p.offline then .error .tryAgain
  else
    match p.extents[extent]? with
    | none => .error .extentNotFound
    | some e => if e.deleted then .error .extentDeleted else .ok e

/-- The selected extents that are not deleted, in ascending order, with their sizes. -/
def watermarks (mode : Option Wire.ExtentMode) (p : Partition) : List Watermark :=
  p.extents.toList.filterMap fun (id, e) ↦
    if !e.deleted && isSelected mode id then some ⟨id, .ofNat e.content.size⟩ else none

def size (p : Partition) : Nat :=
  Bytes.totalSize (p.extents.toList.map fun (_, e) ↦ e.content)

end Partition

/-! ## The store -/

structure Store where
  partitions : Std.ExtTreeMap UInt64 Partition
  used : UInt64
  capacity : UInt64
  deriving DecidableEq

namespace Store

def empty (capacity : UInt64) : Store :=
  ⟨∅, 0, capacity⟩

def repairRequests (partition : UInt64) (s : Store) : UInt64 :=
  s.partitions[partition]?.elim 0 Partition.repairRequests

def setPartition (partition : UInt64) (p : Partition) (s : Store) : Store :=
  { s with partitions := s.partitions.insert partition p }

def setExtent (partition extent : UInt64) (p : Partition) (e : State) (s : Store) : Store :=
  s.setPartition partition { p with extents := p.extents.insert extent e }

/-- Creates an extent, and its partition if need be.  An extent that exists is left alone. -/
def createExtent (partition extent : UInt64) (s : Store) : Except StorageFault Store :=
  let p := s.partitions[partition]?.getD .blank
  if p.offline then .error .tryAgain
  else
    match p.extents[extent]? with
    | some e => if e.deleted then .error .extentDeleted else .ok s
    | none => .ok (s.setExtent partition extent p .blank)

/-- Stores bytes in an extent, overwriting what is there and extending it at its end. -/
def write (partition extent : UInt64) (offset : Int64) (bytes : ByteArray) (s : Store) :
    Except StorageFault Store :=
  if offset < 0 then .error .paramMismatch
  else
    match s.partitions[partition]? with
    | none => .error .extentNotFound
    | some p =>
      match p.live extent with
      | .error fault => .error fault
      | .ok e =>
        let start := offset.toNatClampNeg
        let growth := UInt64.ofNat (start + bytes.size - e.content.size)
        if e.content.size < start then .error .paramMismatch
        else if s.capacity < s.used + growth then .error .noSpace
        else
          let e := { e with content := Bytes.overwrite start bytes e.content }
          .ok { s.setExtent partition extent p e with used := s.used + growth }

/-- Reads bytes of an extent; all of them must be there. -/
def read (partition extent : UInt64) (offset : Int64) (size : UInt32) (s : Store) :
    Except StorageFault ByteArray :=
  if offset < 0 then .error .paramMismatch
  else
    match s.partitions[partition]? with
    | none => .error .extentNotFound
    | some p =>
      match p.live extent with
      | .error fault => .error fault
      | .ok e =>
        let start := offset.toNatClampNeg
        if e.content.size < start + size.toNat then .error .paramMismatch
        else .ok (e.content.extract start (start + size.toNat))

def markDelete (partition extent : UInt64) (s : Store) : Except StorageFault Store :=
  match s.partitions[partition]? with
  | none => .error .extentNotFound
  | some p =>
    match p.live extent with
    | .error fault => .error fault
    | .ok e =>
      .ok {
        s.setExtent partition extent p .tombstone with
        used := s.used - .ofNat e.content.size }

def watermarks (partition : UInt64) (mode : Wire.ExtentMode) (s : Store) :
    Except StorageFault (List Watermark) :=
  match s.partitions[partition]? with
  | none => .error .extentNotFound
  | some p => .ok (p.watermarks (some mode))

def notifyRepair (partition : UInt64) (s : Store) : Except StorageFault Store :=
  match s.partitions[partition]? with
  | none => .error .extentNotFound
  | some p => .ok (s.setPartition partition { p with repairRequests := p.repairRequests + 1 })

/-! ## Master commands -/

/-- Creates a partition, or brings it back online. -/
def createPartition (partition : UInt64) (s : Store) : Store :=
  s.setPartition partition { s.partitions[partition]?.getD .blank with offline := false }

/-- Removes a partition and frees the bytes of its extents. -/
def deletePartition (partition : UInt64) (s : Store) : Store :=
  match s.partitions[partition]? with
  | none => s
  | some p =>
    { s with
      partitions := s.partitions.erase partition
      used := s.used - .ofNat p.size }

def takeOffline (partition : UInt64) (s : Store) : Except StorageFault Store :=
  match s.partitions[partition]? with
  | none => .error .extentNotFound
  | some p => .ok (s.setPartition partition { p with offline := true })

def loadReport (partition : UInt64) (s : Store) : Except StorageFault ByteArray :=
  match s.partitions[partition]? with
  | none => .error .extentNotFound
  | some p => .ok (reportWatermarks (p.watermarks none)).toUTF8

def heartbeat (s : Store) : ByteArray :=
  (reportHeartbeat s.partitions.size s.used s.capacity).toUTF8

def command (opcode : Wire.Opcode) (partition : UInt64) (s : Store) :
    Except StorageFault (ByteArray × Store) :=
  match opcode with
  | .createDataPartition => .ok (ByteArray.empty, s.createPartition partition)
  | .deleteDataPartition => .ok (ByteArray.empty, s.deletePartition partition)
  | .offlineDataPartition => (s.takeOffline partition).map (ByteArray.empty, ·)
  | .loadDataPartition => (s.loadReport partition).map (·, s)
  | .dataNodeHeartbeat => .ok (s.heartbeat, s)
  | _ => .error .paramMismatch

/-! ## The store as an engine -/

def perform (op : Operation) (s : Store) : Except StorageFault (Answer × Store) :=
  match op with
  | .createExtent partition extent => (s.createExtent partition extent).map (.done, ·)
  | .write partition extent offset bytes =>
    (s.write partition extent offset bytes).map (.done, ·)
  | .read partition extent offset size =>
    (s.read partition extent offset size).map (.bytes ·, s)
  | .markDelete partition extent => (s.markDelete partition extent).map (.done, ·)
  | .watermarks partition mode => (s.watermarks partition mode).map (.watermarks ·, s)
  | .notifyRepair partition => (s.notifyRepair partition).map (.done, ·)
  | .command opcode partition =>
    (s.command opcode partition).map fun (body, s) ↦ (.bytes body, s)

/-- The engine whose states are stores.  A fault leaves the store as it was. -/
def engine : Engine Store := fun op s ↦
  match s.perform op with
  | .ok (answer, s') => (.ok answer, s')
  | .error fault => (.error fault, s)

end Store

end ReplicaChain.Extent
