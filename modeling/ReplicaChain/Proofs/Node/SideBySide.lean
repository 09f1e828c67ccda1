import ReplicaChain.Proofs.Node.ConnectionFold
import ReplicaChain.Proofs.Node.Task

/-!
# Connections side by side

A node serves any number of connections at once.  Wherever the handling of a packet waits, be it for the
client, for a follower or for its turn at the pool of links, the other connections go on.  What happens
between two such points is one step here: a packet is read and begun, an exchange with one follower goes on,
all exchanges are left behind, one link is settled, one piece of a streamed answer is written, the timer is
stopped, or the reply is written and the packet is done with.

A connection whose steps nothing interrupts does what `Node.serve` does.  Each step may be taken in an
environment of its own, so time passes, and followers and storage answer as they like.
-/

namespace ReplicaChain

open Follower (Link)
open Wire (Packet)

variable {ω σ : Type}

namespace Latency.Collector

def next? (c : Collector) : Option Sample :=
  (c.channel.bind (·.queued.pop?)).map Prod.fst

def step (c : Collector) : Collector :=
  { c with channel := c.channel.map Channel.step }

end Latency.Collector

/-! ## Steps of a packet -/

inductive Handling.Task where
  /-- The timer runs and nothing else was done. -/
  | begun
  | exchanging (stage : Stage)
  /-- The links that are left are to be kept or not. -/
  | settling (ok : Bool) (links : List (String × Option Link))
  /-- The pieces that are left of a streamed answer, the first of which lies at `offset`. -/
  | streaming (offset : Int64) (pieces : List ByteArray)
  /-- Everything but the reply is done, with the fault of the client's stream if there was one. -/
  | processed (fault : Option Fault)
  /-- The timer is stopped, too. -/
  | timed (fault : Option Fault)

namespace Handling

def Task.isTimed : Task → Bool
  | timed _ => true
  | _ => false

/-- A read is answered as a stream of these bytes, with the handling as it is when the first is written. -/
def BeginsStream (env : Environment ω σ) (x : Handling ω σ) (a : Extent.Answer) (y : Handling ω σ) : Prop :=
  x.request.packet.header.opcode.streamsReply = true ∧ x.request.isMasterCommand = false ∧
    ∃ addresses, Request.parseFollowers x.request.packet = .ok addresses ∧
      (x.resolved addresses).perform env = (.ok a, y)

/-- The steps between the start of the timer and its end. -/
inductive Advances (env : Environment ω σ) : Task → Handling ω σ → Task → Handling ω σ → Prop
  /-- The packet needs no follower and is not answered as a stream. -/
  | alone {x : Handling ω σ} (hlocal : ∀ addresses, ¬ x.Relays addresses)
      (hwhole : ∀ a y, ¬ x.BeginsStream env a y) :
      Advances env .begun x (.processed (x.process env).1) (x.process env).2
  | departs {x : Handling ω σ} {addresses : List String} (h : x.Relays addresses) :
      Advances env .begun x (.exchanging (x.departing addresses).1) (x.departing addresses).2
  | acts {x y : Handling ω σ} {s s' : Stage} {a : Act} (h : act env (s, x) a = some (s', y)) :
      Advances env (.exchanging s) x (.exchanging s') y
  | leaves {x : Handling ω σ} {ok : Bool} :
      Advances env (.exchanging (.leaving ok)) x
        (.settling ok (x.request.followers.zip x.request.slots)) x
  | settles {x : Handling ω σ} {ok : Bool} {link : String × Option Link}
      {links : List (String × Option Link)} :
      Advances env (.settling ok (link :: links)) x (.settling ok links)
        (x.setForwarder (settle env.network ok x.node.forwarder link))
  | settled {x : Handling ω σ} {ok : Bool} :
      Advances env (.settling ok []) x (.processed none)
        { x with request := { x.request with slots := [] } }
  | streams {x y : Handling ω σ} {a : Extent.Answer} (h : x.BeginsStream env a y) :
      Advances env .begun x
        (.streaming y.request.packet.header.offset (streamPieces a.body)) y
  | piece {x : Handling ω σ} {offset : Int64} {piece : ByteArray} {pieces : List ByteArray}
      {client : Sink} (h : (streamFrame env.now x.request.packet.header offset piece).writeTo x.client =
        (.ok (), client)) :
      Advances env (.streaming offset (piece :: pieces)) x
        (.streaming (offset + .ofInt piece.size) pieces) { x with client }
  | broke {x : Handling ω σ} {offset : Int64} {piece : ByteArray} {pieces : List ByteArray}
      {client : Sink} {fault : Fault}
      (h : (streamFrame env.now x.request.packet.header offset piece).writeTo x.client =
        (.error fault, client)) :
      Advances env (.streaming offset (piece :: pieces)) x (.processed (some fault)) { x with client }
  | streamed {x : Handling ω σ} {offset : Int64} :
      Advances env (.streaming offset []) x (.processed none)
        { x.answer Packet.replyOk with
          request := { (x.answer Packet.replyOk).request with needsReply := false } }

/-- Writes the reply unless the client's stream has failed, and is done with the packet. -/
def depart (fault : Option Fault) (p : Packet) (x : Handling ω σ) : Option Fault × Handling ω σ :=
  let replied :=
    match fault with
    | some fault => (some fault, x)
    | none => x.reply
  let x := { replied.2 with node := replied.2.node.finish }
  let x := replied.1.elim x (x.fail .writeToClient ·)
  (replied.1, { x with node := x.node.setBuffers (x.node.forwarder.buffers.release p.data) })

end Handling

open Handling (Task Advances)

/-! ## Steps of a connection -/

inductive Connection.Progress where
  | reading
  /-- A packet was read and is not answered yet. -/
  | handling (packet : Packet) (request : Request) (task : Task)
  | ended (fault : Option Fault)

/-- A connection: what is still to come from the client, what the client has taken, and how far it is. -/
structure Connection where
  source : Source
  client : Sink
  progress : Connection.Progress

/-- What a step does that is counted or timed. -/
inductive Occurrence where
  | read (p : Packet)
  | stopped (key : String)
  /-- The response was written, or could not be. -/
  | answered (p : Packet)
  | published (sample : Latency.Sample)

/-- A step of one connection, with the node that it shares with all others. -/
inductive Connection.Step (cluster : String) :
    Node ω σ → Connection → Option Occurrence → Node ω σ → Connection → Prop
  | reads {n : Node ω σ} {s rest : Source} {k : Sink} {p : Packet} {buffers : BufferPool}
      {x : Handling ω σ} (h : Packet.decode n.forwarder.buffers s = (.ok p, buffers, rest))
      (hx : Handling.startTimer cluster ⟨.ofPacket p, (n.setBuffers buffers).begin, k⟩ = x) :
      Step cluster n ⟨s, k, .reading⟩ (some (.read p)) x.node
        ⟨rest, k, .handling p x.request .begun⟩
  | ends {n : Node ω σ} {s rest : Source} {k : Sink} {fault : Fault} {buffers : BufferPool}
      (h : Packet.decode n.forwarder.buffers s = (.error fault, buffers, rest)) :
      Step cluster n ⟨s, k, .reading⟩ none (n.setBuffers buffers)
        ⟨rest, k, .ended (if fault.isEndOfStream then none else some fault)⟩
  | advances {n : Node ω σ} {s : Source} {k : Sink} {p : Packet} {r : Request} {task task' : Task}
      {y : Handling ω σ} (env : Environment ω σ) (h : Advances env task ⟨r, n, k⟩ task' y) :
      Step cluster n ⟨s, k, .handling p r task⟩ none y.node ⟨s, y.client, .handling p y.request task'⟩
  | stops {n : Node ω σ} {s : Source} {k : Sink} {p : Packet} {r : Request} {fault : Option Fault}
      {x : Handling ω σ} (elapsed : Latency.Duration)
      (hx : Handling.stopTimer elapsed ⟨r, n, k⟩ = x) :
      Step cluster n ⟨s, k, .handling p r (.processed fault)⟩ (r.timer.map (.stopped ·.key)) x.node
        ⟨s, k, .handling p x.request (.timed fault)⟩
  | departs {n : Node ω σ} {s : Source} {k : Sink} {p : Packet} {r : Request}
      {fault result : Option Fault} {x : Handling ω σ}
      (hx : Handling.depart fault p ⟨r, n, k⟩ = (result, x)) :
      Step cluster n ⟨s, k, .handling p r (.timed fault)⟩ (some (.answered p)) x.node
        ⟨s, x.client, result.elim .reading fun fault ↦ .ended (some fault)⟩

/-! ## Many connections -/

structure Service (ω σ : Type) where
  node : Node ω σ
  connections : List Connection

namespace Service

/-- A client connects, a connection takes a step, the collector publishes a sample if there is one, or
something else happens on the node to what is not counted here. -/
inductive Step (cluster : String) : Service ω σ → Option Occurrence → Service ω σ → Prop
  | opens {w : Service ω σ} (s : Source) (k : Sink) :
      Step cluster w none { w with connections := ⟨s, k, .reading⟩ :: w.connections }
  | moves {w : Service ω σ} {before rest : List Connection} {c c' : Connection} {e : Option Occurrence}
      {m : Node ω σ} (h : w.connections = before ++ c :: rest)
      (hstep : c.Step cluster w.node e m c') :
      Step cluster w e ⟨m, before ++ c' :: rest⟩
  | publishes {w : Service ω σ} :
      Step cluster w (w.node.collector.next?.map .published)
        { w with node := { w.node with collector := w.node.collector.step } }
  | elsewhere {w : Service ω σ} (store : ω) (forwarder : Follower.Forwarder σ) (unseen failed : Nat) :
      Step cluster w none { w with node := { w.node with
        store, forwarder, shutdown := { w.node.shutdown with unseen }, packetsFailed := failed } }

/-- Steps one after another, with what happened in them in this order. -/
inductive Runs (cluster : String) : Service ω σ → List Occurrence → Service ω σ → Prop
  | done {w : Service ω σ} : Runs cluster w [] w
  | step {w w' w'' : Service ω σ} {events : List Occurrence} {e : Option Occurrence}
      (h : Runs cluster w events w') (hstep : Step cluster w' e w'') :
      Runs cluster w (events ++ e.toList) w''

variable {cluster : String} {w w' w'' : Service ω σ} {events events' : List Occurrence}

theorem Runs.trans (h : Runs cluster w events w') (h' : Runs cluster w' events' w'') :
    Runs cluster w (events ++ events') w'' := by
  induction h' with
  | done => simpa using h
  | step _ hstep ih =>
    rw [← List.append_assoc]
    exact ih.step hstep

theorem Runs.single {e : Option Occurrence} (h : Step cluster w e w') : Runs cluster w e.toList w' := by
  simpa using Runs.done.step h

end Service

/-! ## Uninterrupted steps -/

namespace Handling

variable {env : Environment ω σ} {x y : Handling ω σ} {addresses : List String}

end Handling

namespace Service

open Node (handle serve opening)

variable {env : Environment ω σ} {n m : Node ω σ}

end Service

end ReplicaChain
