import ReplicaChain.Node.Connection

/-!
# Servers

A server is a node with an address on which it accepts connections.  Two servers cannot share an
address.  A server that is stopped accepts no more connections; a complete server then also closes
its idle links to followers, while a bare accept loop leaves its node alone.
-/

namespace ReplicaChain.Node

open Follower (Forwarder)

/-- How an address is bound when another server has it already. -/
def addressTaken : Fault :=
  .io ⟨.addrInUse, "Address already in use (os error 98)"⟩

/-- Binds a list of addresses one after another.  The port zero asks for any free port. -/
def bindAll (bound : List SocketAddress) : List String → Except Fault (List SocketAddress)
  | [] => .ok bound
  | text :: rest =>
    match (SocketAddress.resolve text).found with
    | .error fault => .error (.io fault)
    | .ok address =>
      if address.portNumber ≠ 0 ∧ address ∈ bound then .error addressTaken
      else bindAll (address :: bound) rest

inductive Phase where
  | accepting
  | ended (fault : Option Fault)
  /-- Ended, and the outcome was taken. -/
  | gone
  deriving DecidableEq, Repr

structure Server (ω σ : Type) where
  node : Node ω σ
  phase : Phase
  /-- Whether the node's links are closed when the server stops. -/
  drains : Bool

namespace Server

variable {ω σ : Type}

/-- Starts a complete server, which ends at once when its address is taken. -/
def run (taken : Bool) (n : Node ω σ) : Server ω σ :=
  ⟨n, if taken then .ended (some addressTaken) else .accepting, true⟩

/-- Starts a bare accept loop. -/
def accept (n : Node ω σ) : Server ω σ :=
  ⟨n, .accepting, false⟩

/-- Stops a server and takes its outcome, unless that was done before. -/
def stop (net : Network σ) (s : Server ω σ) : Option (Option Fault) × Server ω σ :=
  match s.phase with
  | .gone => (none, s)
  | .ended fault => (some fault, { s with phase := .gone })
  | .accepting =>
    let forwarder := if s.drains then (s.node.forwarder.drain net).2 else s.node.forwarder
    (some none, { s with phase := .gone, node := { s.node with forwarder } })

end Server

end ReplicaChain.Node
