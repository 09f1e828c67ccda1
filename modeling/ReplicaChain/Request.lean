import ReplicaChain.Follower.Descriptor
import ReplicaChain.Follower.Forwarder
import ReplicaChain.Latency.Collector
import ReplicaChain.Text.Quoted

/-!
# Requests

A request is a packet on its way through a node, with the followers named in its argument, one slot
for a link to each of them, and the timer that measures how long it takes.  The packet turns into
its own reply while it is handled.
-/

namespace ReplicaChain

open Follower (Link)

structure Request where
  packet : Wire.Packet
  /-- Cleared when the answer was already given as a stream of frames. -/
  needsReply : Bool
  followers : List String
  slots : List (Option Link)
  timer : Option Latency.Timer
  deriving DecidableEq

namespace Request

def ofPacket (packet : Wire.Packet) : Request :=
  ⟨packet, true, [], [], none⟩

def parseFollowers (packet : Wire.Packet) : Except Fault (List String) :=
  match Follower.parse packet.argument packet.header.argumentSize.toNat with
  | .error fault => .error fault
  | .ok addresses =>
    match Follower.checkHopCount packet.header.remaining with
    | .error fault => .error fault
    | .ok _ => .ok addresses

/-- The request with its followers, none of them linked yet. -/
def withFollowers (addresses : List String) (r : Request) : Request :=
  { r with followers := addresses, slots := addresses.map fun _ ↦ none }

def boundLinks (r : Request) : Nat :=
  r.slots.countP Option.isSome

/-- Whether the node has to relay the packet.  Streamed reads are served by one node alone. -/
def isForward (r : Request) : Bool :=
  0 < r.packet.header.remaining && !r.packet.header.opcode.streamsReply

def isMasterCommand (r : Request) : Bool :=
  r.packet.header.opcode.isMaster

def isOk (r : Request) : Bool :=
  r.packet.header.result = .ok

def timerKey (cluster : String) (p : Wire.Packet) : String :=
  cluster ++ "_datanode_stream" ++ p.header.opcode.name

def describe (r : Request) : String :=
  "ReplPacket \x7b packet: " ++ Text.quoted r.packet.logId ++ ", followers: [" ++
    String.intercalate ", " (r.followers.map Text.quoted) ++ "], bound: " ++
    Text.decimal r.boundLinks ++ ", need_reply: " ++ (if r.needsReply then "true" else "false") ++
    " \x7d"

end Request

end ReplicaChain
