import ReplicaChain.Fault

/-!
# Opcodes, results and extent modes

The three enumerations of the packet header.  Every byte is an opcode, since an unassigned one is
kept as `Opcode.unknown`; only nine bytes are results and only two are extent modes.
-/

namespace ReplicaChain.Wire

/-! ## Opcodes -/

inductive Opcode where
  | createExtent
  | markDelete
  | write
  | read
  | streamRead
  | getAllWaterMark
  | notifyExtentRepair
  | extentRepairRead
  | createDataPartition
  | deleteDataPartition
  | loadDataPartition
  | dataNodeHeartbeat
  | offlineDataPartition
  | ok
  | unknown (code : UInt8)
  deriving DecidableEq, Repr

namespace Opcode

def assigned : List (UInt8 × Opcode) :=
  [(0x01, createExtent), (0x02, markDelete), (0x03, write), (0x04, read), (0x05, streamRead),
    (0x07, getAllWaterMark), (0x08, notifyExtentRepair), (0x09, extentRepairRead),
    (0x60, createDataPartition), (0x61, deleteDataPartition), (0x62, loadDataPartition),
    (0x63, dataNodeHeartbeat), (0x64, offlineDataPartition), (0xF0, ok)]

def ofByte (code : UInt8) : Opcode :=
  (assigned.lookup code).getD (unknown code)

def toByte : Opcode → UInt8
  | createExtent => 0x01
  | markDelete => 0x02
  | write => 0x03
  | read => 0x04
  | streamRead => 0x05
  | getAllWaterMark => 0x07
  | notifyExtentRepair => 0x08
  | extentRepairRead => 0x09
  | createDataPartition => 0x60
  | deleteDataPartition => 0x61
  | loadDataPartition => 0x62
  | dataNodeHeartbeat => 0x63
  | offlineDataPartition => 0x64
  | ok => 0xF0
  | unknown code => code

def name : Opcode → String
  | createExtent => "OpCreateExtent"
  | markDelete => "OpMarkDelete"
  | write => "OpWrite"
  | read => "OpRead"
  | streamRead => "OpStreamRead"
  | getAllWaterMark => "OpGetAllWaterMark"
  | notifyExtentRepair => "OpNotifyExtentRepair"
  | extentRepairRead => "OpExtentRepairRead"
  | createDataPartition => "OpCreateDataPartition"
  | deleteDataPartition => "OpDeleteDataPartition"
  | loadDataPartition => "OpLoadDataPartition"
  | dataNodeHeartbeat => "OpDataNodeHeartbeat"
  | offlineDataPartition => "OpOfflineDataPartition"
  | ok => "OpOk"
  | unknown _ => "OpUnknown"

/-- The name of an opcode, with the byte of an unknown one. -/
def text : Opcode → String
  | unknown code => "OpUnknown(" ++ Text.hex code.toNat ++ ")"
  | o => o.name

def isRead (o : Opcode) : Bool :=
  o = streamRead || o = read || o = extentRepairRead

/-- Whether the opcode is a command of the cluster's master, which concerns one node alone. -/
def isMaster (o : Opcode) : Bool :=
  o = createDataPartition || o = deleteDataPartition || o = loadDataPartition ||
    o = dataNodeHeartbeat || o = offlineDataPartition

/-- Whether the answer is a stream of frames instead of one reply. -/
def streamsReply (o : Opcode) : Bool :=
  o = streamRead

@[simp]
theorem toByte_ofByte (code : UInt8) : (ofByte code).toByte = code := by
  unfold ofByte assigned
  simp only [List.lookup_cons, List.lookup_nil]
  repeat' split
  all_goals simp_all [toByte]

end Opcode

/-! ## Results -/

/-- How a packet was answered; requests carry `unexecuted`. -/
inductive ResultCode where
  | unexecuted
  | ok
  | intraGroupNet
  | argMismatch
  | notExist
  | diskNoSpace
  | disk
  | again
  | notLeader
  deriving DecidableEq, Repr

namespace ResultCode

def toByte : ResultCode → UInt8
  | unexecuted => 0x00
  | ok => 0xF0
  | intraGroupNet => 0xF3
  | argMismatch => 0xF4
  | notExist => 0xF5
  | diskNoSpace => 0xF6
  | disk => 0xF7
  | again => 0xF9
  | notLeader => 0xFC

def ofByte? (code : UInt8) : Option ResultCode :=
  [unexecuted, ok, intraGroupNet, argMismatch, notExist, diskNoSpace, disk, again, notLeader].find?
    (·.toByte = code)

/-- The result that a byte stands for, or the breach of using an unassigned byte. -/
def ofByte (code : UInt8) : Except Fault ResultCode :=
  match ofByte? code with
  | some r => .ok r
  | none => .error (.protocol (.unknownResult code))

def name : ResultCode → String
  | unexecuted => "Unexecuted"
  | ok => "Ok"
  | intraGroupNet => "IntraGroupNetErr"
  | argMismatch => "ArgMismatchErr"
  | notExist => "NotExistErr"
  | diskNoSpace => "DiskNoSpaceErr"
  | disk => "DiskErr"
  | again => "Again"
  | notLeader => "NotLeaderErr"

/-- The result as it is sent to a peer: the state of the disk is a private matter of the node. -/
def forWire : ResultCode → ResultCode
  | diskNoSpace | disk => intraGroupNet
  | r => r

@[simp]
theorem ofByte_toByte (r : ResultCode) : ofByte r.toByte = .ok r := by
  cases r <;> rfl

theorem toByte_of_ofByte {code : UInt8} {r : ResultCode} (h : ofByte code = .ok r) :
    r.toByte = code := by
  unfold ofByte at h
  split at h
  · rename_i s hs
    cases h
    simpa using List.find?_some hs
  · cases h

end ResultCode

/-! ## Extent modes -/

/-- Which half of the extents a watermark request is about. -/
inductive ExtentMode where
  | normal
  | tiny
  deriving DecidableEq, Repr

namespace ExtentMode

def toByte : ExtentMode → UInt8
  | normal => 0
  | tiny => 1

def ofByte (code : UInt8) : Except Fault ExtentMode :=
  if code = 0 then .ok normal
  else if code = 1 then .ok tiny
  else .error (.protocol (.unknownMode code))

@[simp]
theorem ofByte_toByte (m : ExtentMode) : ofByte m.toByte = .ok m := by
  cases m <;> rfl

theorem toByte_of_ofByte {code : UInt8} {m : ExtentMode} (h : ofByte code = .ok m) :
    m.toByte = code := by
  unfold ofByte at h
  split at h
  · cases h
    simp_all [toByte]
  · split at h
    · cases h
      simp_all [toByte]
    · cases h

end ExtentMode

end ReplicaChain.Wire
