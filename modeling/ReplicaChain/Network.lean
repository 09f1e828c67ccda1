import ReplicaChain.Follower.LinkPool
import ReplicaChain.SocketAddress.Lookup
import ReplicaChain.Stream.Source

/-!
# Networks

What followers do is not up to the node that talks to them, so it is a parameter.  A network with
states in `σ` says how dials turn out, what becomes of the bytes written on a link and which bytes a
link delivers.  Any network will do: followers may refuse, stall, close early or answer with
arbitrary bytes, and everything they do may depend on everything that happened before.
-/

namespace ReplicaChain

/-- How an attempt with a deadline turns out. -/
inductive Attempt where
  | succeeded
  | failed (fault : IoFault)
  /-- The deadline passed first. -/
  | expired
  deriving DecidableEq, Repr

/-- The behaviour of everything at the other end of a node's links. -/
structure Network (σ : Type) where
  /-- Starts to dial a link; some dials are decided at once. -/
  dial : Follower.Link → σ → Option Attempt × σ
  /-- Waits for a dial that was not decided at once. -/
  await : Follower.Link → σ → Attempt × σ
  /-- Writes bytes on a link, all of them unless it fails. -/
  write : Follower.Link → ByteArray → σ → Except IoFault Unit × σ
  /-- What a link delivers from now on, up to the reader's deadline. -/
  incoming : Follower.Link → σ → Source × σ
  /-- Leaves the rest of what a link delivers unread. -/
  leave : Follower.Link → Source → σ → σ
  /-- Closes a link. -/
  close : Follower.Link → σ → σ

namespace Network

def noRoute : IoFault :=
  ⟨.networkUnreachable, "Network is unreachable (os error 101)"⟩

/-- The network of a host without a route to anywhere.  A dial to an address fails at once, and any
other text is looked up first. -/
def unreachable : Network Unit where
  dial link s :=
    match SocketAddress.resolve link.address with
    | .address _ => (some (.failed noRoute), s)
    | .lookup _ => (none, s)
  await link s :=
    match SocketAddress.resolve link.address with
    | .lookup (.error fault) => (.failed fault, s)
    | _ => (.failed noRoute, s)
  write _ _ s := (.error ⟨.notConnected, IoKind.description .notConnected⟩, s)
  incoming _ s := (⟨[], .closed⟩, s)
  leave _ _ s := s
  close _ s := s

end Network

end ReplicaChain
