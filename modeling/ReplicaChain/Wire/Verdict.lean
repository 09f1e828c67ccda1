import ReplicaChain.Wire.Opcode

/-!
# Verdicts

Every fault met while handling a packet is answered with a result code.  The code depends on what
the node was doing, on the fault and, in one case, on the opcode: a write to an extent that is not
there is a failure of the replica group, while a read of it is the client's mistake.
-/

namespace ReplicaChain.Wire

/-- What a node was doing with a packet. -/
inductive Action where
  | prepare
  | operate
  | sendToFollowers
  | receiveFromFollower
  | linkMissing
  | checkAndAddInfos
  | receiveFromClient
  | writeToClient
  deriving DecidableEq, Repr

namespace Action

def label : Action → String
  | prepare => "PreparePkg"
  | operate => "OperatePkg"
  | sendToFollowers => "SendToFollowers"
  | receiveFromFollower => "ReceiveFromFollower"
  | linkMissing => "ConnIsNull"
  | checkAndAddInfos => "CheckAndAddInfos"
  | receiveFromClient => "ReceiveFromClient"
  | writeToClient => "WriteToClient"

/-- Every action, in the order in which a packet meets them. -/
def all : List Action :=
  [prepare, operate, sendToFollowers, receiveFromFollower, linkMissing, checkAndAddInfos,
    receiveFromClient, writeToClient]

def ofLabel? (s : String) : Option Action :=
  all.find? (·.label = s)

def isPeerCommunication : Action → Bool
  | sendToFollowers | receiveFromFollower | linkMissing | checkAndAddInfos => true
  | _ => false

end Action

def errorBody (action : Action) (fault : Fault) : String :=
  action.label ++ "_" ++ fault.message

/-- The result code of a storage fault met while handling `opcode`. -/
def storageVerdict (opcode : Opcode) : StorageFault → ResultCode
  | .paramMismatch => .argMismatch
  | .extentNotFound => if opcode = .write then .intraGroupNet else .notExist
  | .extentDeleted => .notExist
  | .noSpace => .diskNoSpace
  | .disk _ => .disk
  | .tryAgain => .again
  | .notLeader => .notLeader
  | .other _ => .intraGroupNet

/-- The result code of a fault met during `action` on a packet with `opcode`. -/
def verdict (action : Action) (fault : Fault) (opcode : Opcode) : ResultCode :=
  if action.isPeerCommunication then .intraGroupNet
  else
    match fault with
    | .storage fault => storageVerdict opcode fault
    | .unknownOpcode _ => .argMismatch
    | _ => .intraGroupNet

end ReplicaChain.Wire
