import ReplicaChain.Node.Handling

/-!
# Connections

A node serves a connection packet by packet: it reads one, handles it, answers it, and only then
reads the next.  A packet that was read never ends the connection, whatever is wrong with it.  The
connection ends when the next packet cannot be read, which is no fault if the client has closed the
stream, or when an answer cannot be written.
-/

namespace ReplicaChain.Node

open Wire (Packet)

variable {ω σ : Type}

def setBuffers (buffers : BufferPool) (n : Node ω σ) : Node ω σ :=
  { n with forwarder := { n.forwarder with buffers } }

def begin (n : Node ω σ) : Node ω σ :=
  { n with packetsReceived := n.packetsReceived + 1, shutdown := n.shutdown.begin }

def finish (n : Node ω σ) : Node ω σ :=
  { n with shutdown := n.shutdown.finish }

/-- Handles and answers one packet that was read.  A fault is left over when the answer could not
be written. -/
def handle (env : Environment ω σ) (p : Packet) (n : Node ω σ) (client : Sink) :
    Option Fault × Node ω σ × Sink :=
  let x : Handling ω σ := ⟨.ofPacket p, n.begin, client⟩
  let processed := (x.startTimer env.cluster).process env
  let x := processed.2.stopTimer env.elapsed
  let replied :=
    match processed.1 with
    | some fault => (some fault, x)
    | none => x.reply
  let x := { replied.2 with node := replied.2.node.finish }
  let x := replied.1.elim x (x.fail .writeToClient ·)
  (replied.1, x.node.setBuffers (x.node.forwarder.buffers.release p.data), x.client)

/-- Serves a connection to its end, which is a fault unless the client closed the stream. -/
def serve (env : Environment ω σ) (n : Node ω σ) (s : Source) (client : Sink) :
    Option Fault × Node ω σ × Sink :=
  match _hd : Packet.decode n.forwarder.buffers s with
  | (.error fault, buffers, _) =>
    (if fault.isEndOfStream then none else some fault, n.setBuffers buffers, client)
  | (.ok p, buffers, s') =>
    match handle env p (n.setBuffers buffers) client with
    | (some fault, n, client) => (some fault, n, client)
    | (none, n, client) => serve env n s' client
termination_by s.size
decreasing_by
  have := Packet.size_of_decode _hd
  have : 0 < Wire.Header.byteSize := by decide
  omega

end ReplicaChain.Node
