import ReplicaChain.Latency.Histogram
import Std.Data.ExtTreeMap

/-!
# Histograms by key

A registry keeps one histogram per timer key.  A histogram is made when its key is first published
and is never replaced: the index maps each key to a place, and a place, once given out, stays with
its key.  Publishing is looking the key up, claiming a place for it if it has none, and recording
into the place; each of the three is a step of its own, since several publishers may take them in
turns.
-/

namespace ReplicaChain.Latency

structure Sample where
  key : String
  elapsed : Duration
  deriving DecidableEq, Repr

structure Registry where
  places : Std.ExtTreeMap String Nat
  histograms : Array Histogram

namespace Registry

def empty : Registry :=
  ⟨∅, #[]⟩

instance : Inhabited Registry :=
  ⟨empty⟩

def lookup (key : String) (r : Registry) : Option Nat :=
  r.places[key]?

/-- The place of a key, which gets a fresh one if it has none. -/
def claim (key : String) (r : Registry) : Nat × Registry :=
  match r.lookup key with
  | some place => (place, r)
  | none =>
    (r.histograms.size,
      ⟨r.places.insert key r.histograms.size, r.histograms.push Histogram.empty⟩)

def recordAt (place : Nat) (d : Duration) (r : Registry) : Registry :=
  { r with histograms := r.histograms.modify place (Histogram.record d) }

def publish (s : Sample) (r : Registry) : Registry :=
  match r.lookup s.key with
  | some place => r.recordAt place s.elapsed
  | none =>
    let claimed := r.claim s.key
    claimed.2.recordAt claimed.1 s.elapsed

def snapshot (key : String) (r : Registry) : Option Histogram :=
  (r.lookup key).bind (r.histograms[·]?)

/-- The published keys in ascending order. -/
def keys (r : Registry) : List String :=
  r.places.toList.map (·.1)

end Registry

end ReplicaChain.Latency
