import ReplicaChain.Extent.Store
import ReplicaChain.Node.Connection
import ReplicaChain.Settings.Basic

/-!
# Starting a node

A new node has an empty store, no links, and buffers and limits as its settings say.  Unless timing
is turned off, it keeps a histogram per key and writes a line per sample.
-/

namespace ReplicaChain.Node

open Extent (Store)

variable {σ : Type}

def collectorOf (s : LatencySettings) : Latency.Collector :=
  if s.enabled then .enabled s.backlog.toNat [.histogram .empty, .tracing []] else .disabled

def ofSettings (s : Settings) (network : σ) : Node Store σ :=
  .idle (.empty s.store.capacity) s.linkLimits
    (.filled s.buffers.headers.toNat s.buffers.blocks.toNat) (collectorOf s.latency) network

/-- What a node with the given settings runs on, where relays and replies advance in turn. -/
def environment (s : Settings) (network : Network σ) (now : Int64) : Environment Store σ where
  cluster := s.cluster
  engine := Store.engine
  network
  now
  elapsed := ⟨0⟩
  sendSchedule := []
  receiveSchedule := []

end ReplicaChain.Node
