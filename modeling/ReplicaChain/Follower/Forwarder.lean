import ReplicaChain.Network
import ReplicaChain.Wire.Frame

/-!
# Forwarders

A forwarder is what a node needs for talking to followers: the pool of links, the buffers into which
replies are read, and the network.  Relaying one packet takes one exchange per follower, and the
exchanges of a packet run at the same time.

An exchange goes through stages.  `Sending.step` moves one exchange of many to its next stage, and
`Forwarder.send` moves the exchanges in whatever order a schedule says before it moves all of them
to their end.  Collecting the replies is done in the same manner, with one stage per exchange.  The
exchanges of a packet stand in an array, so that a step takes no longer when there are more of them.
-/

namespace ReplicaChain.Follower

open Wire (Packet)

/-- The state that exchanges with followers work on. -/
structure Forwarder (σ : Type) where
  links : LinkPool
  buffers : BufferPool
  /-- How many relays were begun. -/
  relays : Nat
  /-- How many packets failed on the way to or from their followers. -/
  failures : Nat
  network : σ

variable {σ : Type}

namespace Forwarder

/-! ## Borrowing links -/

/-- Takes note of how the dial of a link turned out. -/
def conclude (link : Link) (a : Attempt) (f : Forwarder σ) : Except Fault Link × Forwarder σ :=
  match a with
  | .succeeded => (.ok link, { f with links := f.links.opened })
  | .failed fault => (.error (.io fault), { f with links := f.links.notOpened })
  | .expired => (.error (.timedOut "follower connect"), { f with links := f.links.notOpened })

def awaitDial (net : Network σ) (link : Link) (f : Forwarder σ) :
    Except Fault Link × Forwarder σ :=
  let awaited := net.await link f.network
  { f with network := awaited.2 }.conclude link awaited.1

/-- Borrows a link to an address, dialing when none is idle. -/
def acquire (net : Network σ) (address : String) (f : Forwarder σ) :
    Except Fault Link × Forwarder σ :=
  match f.links.request address with
  | (.refused fault, links) => (.error fault, { f with links })
  | (.idle link, links) => (.ok link, { f with links })
  | (.toDial link, links) =>
    match net.dial link f.network with
    | (some a, network) => { f with links, network }.conclude link a
    | (none, network) => { f with links, network }.awaitDial net link

def release (net : Network σ) (address : String) (link : Link) (keep : Bool)
    (f : Forwarder σ) : Forwarder σ :=
  let released := f.links.release address link keep
  { f with
    links := released.2
    network := if released.1 then f.network else net.close link f.network }

def destroy (net : Network σ) (link : Link) (f : Forwarder σ) : Forwarder σ :=
  { f with links := f.links.destroy, network := net.close link f.network }

/-- Closes all idle links and lends no more; gives the number of links closed. -/
def drain (net : Network σ) (f : Forwarder σ) : Nat × Forwarder σ :=
  let drained := f.links.drain
  (drained.1.length, {
    f with
    links := drained.2
    network := drained.1.foldl (fun s link ↦ net.close link s) f.network })

end Forwarder

/-! ## The relayed frame -/

/-- The copy of a packet that followers get.  It names no followers, so that they do not relay it
further, and it declares just the payload that it carries. -/
def relayHeader (p : Packet) : Wire.Header :=
  { p.header with
    remaining := 0
    argumentSize := 0
    size := if p.header.defersPayload then p.header.size else .ofNat p.payload.size }

/-- The frame that is relayed to every follower of a packet. -/
def relayFrame (p : Packet) : ByteArray :=
  (relayHeader p).encode ++ if p.header.defersPayload then ByteArray.empty else p.payload

/-! ## Sending -/

inductive SendStage where
  | waiting
  | dialing (link : Link)
  | connected (link : Link)
  /-- Done, with the link that was obtained and the fault that ended the relay. -/
  | settled (link : Option Link) (fault : Option Fault)
  deriving DecidableEq, Repr

/-- The relays of one packet, each with the address of its follower. -/
structure Sending (σ : Type) where
  relays : Array (String × SendStage)
  forwarder : Forwarder σ

namespace Sending

def stageOfLink : Except Fault Link → SendStage
  | .ok link => .connected link
  | .error fault => .settled none (some fault)

def advance (net : Network σ) (frame : ByteArray) (address : String) (stage : SendStage)
    (f : Forwarder σ) : SendStage × Forwarder σ :=
  match stage with
  | .waiting =>
    match f.links.request address with
    | (.refused fault, links) => (.settled none (some fault), { f with links })
    | (.idle link, links) => (.connected link, { f with links })
    | (.toDial link, links) =>
      match net.dial link f.network with
      | (none, network) => (.dialing link, { f with links, network })
      | (some a, network) =>
        let concluded := { f with links, network }.conclude link a
        (stageOfLink concluded.1, concluded.2)
  | .dialing link =>
    let concluded := f.awaitDial net link
    (stageOfLink concluded.1, concluded.2)
  | .connected link =>
    match net.write link frame f.network with
    | (.ok _, network) => (.settled (some link) none, { f with network, relays := f.relays + 1 })
    | (.error fault, network) =>
      (.settled (some link) (some (.io fault)), { f with network, relays := f.relays + 1 })
  | .settled link fault => (.settled link fault, f)

def step (net : Network σ) (frame : ByteArray) (s : Sending σ) (i : Nat) : Sending σ :=
  match s.relays[i]? with
  | none => s
  | some (address, stage) =>
    let advanced := advance net frame address stage s.forwarder
    { relays := s.relays.setIfInBounds i (address, advanced.1), forwarder := advanced.2 }

def start (followers : List String) (f : Forwarder σ) : Sending σ :=
  ⟨(followers.map (·, .waiting)).toArray, f⟩

/-- An order in which `n` relays come to their end: each takes its first step, then each its
second, then each its last. -/
def rounds (n : Nat) : List Nat :=
  List.range n ++ List.range n ++ List.range n

def result : SendStage → Option Link × Option Fault
  | .settled link fault => (link, fault)
  | .connected link => (some link, none)
  | .dialing _ | .waiting => (none, none)

end Sending

/-- Relays a frame to every follower, taking steps in the order of `schedule` and then in turns. -/
def Forwarder.send (net : Network σ) (schedule : List Nat) (frame : ByteArray)
    (followers : List String) (f : Forwarder σ) :
    List (Option Link × Option Fault) × Forwarder σ :=
  let s := (schedule ++ Sending.rounds followers.length).foldl (Sending.step net frame)
    (Sending.start followers f)
  (s.relays.toList.map (Sending.result ·.2), s.forwarder)

/-! ## Collecting replies -/

/-- Whether a follower's reply acknowledges the request: the same request id, and success. -/
def checkReply (address : String) (requestId : Int64) (reply : Packet) : Option Fault :=
  if reply.header.requestId ≠ requestId then
    some (.requestMismatch address requestId reply.header.requestId)
  else if reply.header.result ≠ .ok then
    some (.followerRefused address reply.header.result.toByte (Text.Utf8.lossy reply.payload))
  else none

def Forwarder.receiveOne (net : Network σ) (requestId : Int64) (address : String) (link : Link)
    (f : Forwarder σ) : Option Fault × Forwarder σ :=
  let incoming := net.incoming link f.network
  match Packet.decode f.buffers incoming.1 with
  | (.error fault, buffers, rest) =>
    (some fault, { f with buffers, network := net.leave link rest incoming.2 })
  | (.ok reply, buffers, rest) =>
    (checkReply address requestId reply, {
      f with
      buffers := buffers.release reply.data
      network := net.leave link rest incoming.2 })

/-- How far the exchange with one follower has come after the relay. -/
inductive ReceiveStage where
  | pending (link : Option Link)
  | settled (link : Option Link) (fault : Option Fault)
  deriving DecidableEq, Repr

/-- The replies to one packet, each with the address of its follower. -/
structure Receiving (σ : Type) where
  replies : Array (String × ReceiveStage)
  forwarder : Forwarder σ

namespace Receiving

def advance (net : Network σ) (requestId : Int64) (address : String) (stage : ReceiveStage)
    (f : Forwarder σ) : ReceiveStage × Forwarder σ :=
  match stage with
  | .pending none => (.settled none (some (.unlinked address)), f)
  | .pending (some link) =>
    let received := f.receiveOne net requestId address link
    (.settled (some link) received.1, received.2)
  | .settled link fault => (.settled link fault, f)

def step (net : Network σ) (requestId : Int64) (s : Receiving σ) (i : Nat) : Receiving σ :=
  match s.replies[i]? with
  | none => s
  | some (address, stage) =>
    let advanced := advance net requestId address stage s.forwarder
    { replies := s.replies.setIfInBounds i (address, advanced.1), forwarder := advanced.2 }

def result : ReceiveStage → Option Link × Option Fault
  | .settled link fault => (link, fault)
  | .pending link => (link, none)

end Receiving

/-- Collects the replies of followers whose links are in `slots`, in the order of `schedule` and
then in turn.  A follower without a slot is not asked. -/
def Forwarder.receive (net : Network σ) (schedule : List Nat) (requestId : Int64)
    (followers : List String) (slots : List (Option Link)) (f : Forwarder σ) :
    List (Option Link × Option Fault) × Forwarder σ :=
  let pending := (followers.zip slots).map fun (address, link) ↦ (address, .pending link)
  let s := (schedule ++ List.range pending.length).foldl (Receiving.step net requestId)
    ⟨pending.toArray, f⟩
  (s.replies.toList.map (Receiving.result ·.2), s.forwarder)

def firstFault (results : List (Option Link × Option Fault)) : Option Fault :=
  results.findSome? (·.2)

end ReplicaChain.Follower
