import ReplicaChain.Latency.Backlog
import ReplicaChain.Latency.Registry

/-!
# The sample collector

Operations are timed without waiting for anyone.  Stopping a timer puts its sample into a bounded
queue, or drops it when the queue is full; a task of its own empties the queue and hands each sample
to every backend.  The queue belongs to its senders, the collector and the timers that it started:
the task ends when all of them are gone and the queue is empty.  A disabled collector has no queue
and its timers report nowhere.
-/

namespace ReplicaChain.Latency

/-! ## Backends -/

inductive Backend where
  /-- Keeps a histogram per key. -/
  | histogram (registry : Registry)
  /-- Writes a line per sample; here it keeps the samples of which it wrote. -/
  | tracing (samples : List Sample)

namespace Backend

def name : Backend → String
  | histogram _ => "histogram"
  | tracing _ => "tracing"

def publish (s : Sample) : Backend → Backend
  | histogram registry => histogram (registry.publish s)
  | tracing samples => tracing (samples ++ [s])

end Backend

/-! ## The queue -/

/-- The queue between the timers and the publishing task. -/
structure Channel where
  capacity : Nat
  /-- Samples not yet published. -/
  queued : Backlog Sample
  /-- How many parties may still put samples into the queue. -/
  senders : Nat
  /-- How many samples found the queue full. -/
  dropped : Nat
  backends : List Backend
  /-- Whether the publishing task has ended. -/
  ended : Bool

namespace Channel

/-- A queue for `capacity` samples, at least one, with the collector as its only sender. -/
def opened (capacity : Nat) (backends : List Backend) : Channel :=
  ⟨max capacity 1, .empty, 1, 0, backends, false⟩

def offer (s : Sample) (c : Channel) : Channel :=
  if c.queued.size < c.capacity then { c with queued := c.queued.push s }
  else { c with dropped := c.dropped + 1 }

def join (c : Channel) : Channel :=
  { c with senders := c.senders + 1 }

def leave (c : Channel) : Channel :=
  { c with senders := c.senders - 1 }

/-- The task takes one sample, or ends when none can come any more. -/
def step (c : Channel) : Channel :=
  match c.queued.pop? with
  | some (s, rest) => { c with queued := rest, backends := c.backends.map (Backend.publish s) }
  | none => if c.senders = 0 then { c with ended := true } else c

def steps : Nat → Channel → Channel
  | 0, c => c
  | n + 1, c => steps n c.step

/-- The task runs until it has to wait. -/
def flush (c : Channel) : Channel :=
  c.steps (c.queued.size + 1)

end Channel

/-! ## Collectors and timers -/

/-- The state behind a collector and its timers.  Without a channel the collector is disabled. -/
structure Collector where
  channel : Option Channel
  /-- Whether the collector itself is still there. -/
  isOpen : Bool

/-- A running timer, which knows whether its sample has somewhere to go. -/
structure Timer where
  key : String
  reports : Bool
  deriving DecidableEq, Repr

namespace Collector

def disabled : Collector :=
  ⟨none, true⟩

def enabled (capacity : Nat) (backends : List Backend) : Collector :=
  ⟨some (.opened capacity backends), true⟩

def isEnabled (c : Collector) : Bool :=
  c.channel.isSome

def start (key : String) (c : Collector) : Timer × Collector :=
  (⟨key, c.isEnabled⟩, { c with channel := c.channel.map Channel.join })

/-- Drops a timer without a sample. -/
def forget (t : Timer) (c : Collector) : Collector :=
  if t.reports then { c with channel := c.channel.map Channel.leave } else c

def stop (t : Timer) (elapsed : Duration) (c : Collector) : Collector :=
  if t.reports then
    { c with channel := c.channel.map fun q ↦ (q.offer ⟨t.key, elapsed⟩).leave }
  else c

/-- Drops the collector itself; its running timers stay. -/
def close (c : Collector) : Collector :=
  if c.isOpen then { channel := c.channel.map Channel.leave, isOpen := false } else c

def flush (c : Collector) : Collector :=
  { c with channel := c.channel.map Channel.flush }

def dropped (c : Collector) : Nat :=
  c.channel.elim 0 Channel.dropped

def backends (c : Collector) : List Backend :=
  c.channel.elim [] Channel.backends

def hasEnded (c : Collector) : Option Bool :=
  c.channel.map Channel.ended

end Collector

end ReplicaChain.Latency
