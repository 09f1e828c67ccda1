import ReplicaChain.Bytes.Slice
import ReplicaChain.Fault

/-!
# Outgoing streams

A sink is the receiving end of what a node writes.  It accepts bytes until its room is used up, the
last write possibly in part, and refuses everything after that with one and the same fault.
-/

namespace ReplicaChain

/-- An outgoing stream: what it has taken, how much more it takes, and how it then fails. -/
structure Sink where
  written : ByteArray
  room : Option Nat
  refusal : IoFault

namespace Sink

def unbounded : Sink :=
  ⟨ByteArray.empty, none, ⟨.brokenPipe, "peer closed"⟩⟩

/-- Writes a nonempty byte string, as much of it as there is room for. -/
def write (b : ByteArray) (k : Sink) : Except Fault Unit × Sink :=
  match k.room with
  | none => (.ok (), { k with written := k.written ++ b })
  | some n =>
    if b.size ≤ n then (.ok (), { k with written := k.written ++ b, room := some (n - b.size) })
    else
      (.error (.io k.refusal),
        { k with written := k.written ++ Bytes.take n b, room := some 0 })

end Sink

end ReplicaChain
