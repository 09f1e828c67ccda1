import ReplicaChain.Follower.LinkPool
import ReplicaChain.SocketAddress

/-!
# Settings

What a node can be set to.  Every setting has a default.  Read deadlines are given in whole seconds,
and zero means to wait without end.
-/

namespace ReplicaChain

structure LinkSettings where
  idlePerAddress : UInt64 := 8
  maxLinks : UInt64 := 1024
  connectTimeoutMs : UInt64 := 5000
  deriving DecidableEq, Repr

structure BufferSettings where
  headers : UInt64 := 1024
  blocks : UInt64 := 64
  deriving DecidableEq, Repr

/-- Whether operations are timed, and how many samples may wait to be counted. -/
structure LatencySettings where
  enabled : Bool := true
  backlog : UInt64 := 4096
  deriving DecidableEq, Repr

structure StoreSettings where
  capacity : UInt64 := 1073741824
  deriving DecidableEq, Repr

structure Settings where
  /-- The beginning of every timer key. -/
  cluster : String := "cfs"
  listen : SocketAddress := .v4 [0, 0, 0, 0] 17310
  clientTimeout : UInt64 := 60
  followerTimeout : UInt64 := 30
  links : LinkSettings := {}
  buffers : BufferSettings := {}
  latency : LatencySettings := {}
  store : StoreSettings := {}
  deriving DecidableEq, Repr

namespace Settings

def deadline (seconds : UInt64) : Option UInt64 :=
  if seconds = 0 then none else some seconds

def clientDeadline (s : Settings) : Option UInt64 :=
  deadline s.clientTimeout

def followerDeadline (s : Settings) : Option UInt64 :=
  deadline s.followerTimeout

def linkLimits (s : Settings) : Follower.LinkLimits :=
  ⟨s.links.idlePerAddress.toNat, s.links.maxLinks.toNat, s.links.connectTimeoutMs.toNat⟩

end Settings

end ReplicaChain
