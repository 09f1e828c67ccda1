import ReplicaChain.Extent.Operation
import ReplicaChain.Request
import ReplicaChain.Shutdown

/-!
# Handling one packet

A node relays a packet to its followers, applies it to its own storage, collects the followers'
replies and settles their links, in this order.  The success reply is made when the packet has been
applied; a failed relay keeps it from being applied, and a failed or missing acknowledgement
replaces it by an error.  Commands of the master skip everything but the storage, and a streamed
read answers on the client's stream by itself.

The storage engine, the network, the clock and the order in which exchanges with followers advance
are given from outside.
-/

namespace ReplicaChain

open Wire (Packet Action)
open Follower (Forwarder Link)

/-! ## Nodes -/

structure Environment (ω σ : Type) where
  cluster : String
  engine : Extent.Engine ω
  network : Network σ
  /-- The time stamped on packets made while handling. -/
  now : Int64
  /-- The time found on a timer when it is stopped. -/
  elapsed : Latency.Duration
  /-- The order in which relays to followers advance before each is brought to its end. -/
  sendSchedule : List Nat
  /-- The order in which replies of followers are collected before the rest in turn. -/
  receiveSchedule : List Nat

structure Node (ω σ : Type) where
  store : ω
  forwarder : Forwarder σ
  collector : Latency.Collector
  shutdown : Shutdown
  packetsReceived : Nat
  packetsFailed : Nat

def Node.idle {ω σ : Type} (store : ω) (limits : Follower.LinkLimits) (buffers : BufferPool)
    (collector : Latency.Collector) (network : σ) : Node ω σ where
  store
  forwarder := ⟨.empty limits, buffers, 0, 0, network⟩
  collector
  shutdown := .idle
  packetsReceived := 0
  packetsFailed := 0

/-- The state in which one packet is handled: the packet itself, the node, and the stream to the
client. -/
structure Handling (ω σ : Type) where
  request : Request
  node : Node ω σ
  client : Sink

namespace Handling

variable {ω σ : Type}

/-! ## Faults -/

def fail (action : Action) (fault : Fault) (x : Handling ω σ) : Handling ω σ :=
  { x with
    request := { x.request with packet := x.request.packet.replyFault action fault }
    node := { x.node with packetsFailed := x.node.packetsFailed + 1 } }

def answer (reply : Packet → Packet) (x : Handling ω σ) : Handling ω σ :=
  { x with request := { x.request with packet := reply x.request.packet } }

/-! ## Timing -/

/-- Starts the timer of the packet; a timer that was running is dropped. -/
def startTimer (cluster : String) (x : Handling ω σ) : Handling ω σ :=
  let collector := x.request.timer.elim x.node.collector (x.node.collector.forget ·)
  let started := collector.start (Request.timerKey cluster x.request.packet)
  { x with
    request := { x.request with timer := some started.1 }
    node := { x.node with collector := started.2 } }

def stopTimer (elapsed : Latency.Duration) (x : Handling ω σ) : Handling ω σ :=
  match x.request.timer with
  | none => x
  | some t =>
    { x with
      request := { x.request with timer := none }
      node := { x.node with collector := x.node.collector.stop t elapsed } }

/-! ## Followers -/

/-- Finds the followers of the packet. -/
def resolve (x : Handling ω σ) : Option Fault × Handling ω σ :=
  match Request.parseFollowers x.request.packet with
  | .ok addresses => (none, { x with request := x.request.withFollowers addresses })
  | .error fault => (some fault, x.fail .prepare fault)

def setForwarder (f : Forwarder σ) (x : Handling ω σ) : Handling ω σ :=
  { x with node := { x.node with forwarder := f } }

/-- Counts a packet that failed on the way to or from its followers, and reports the fault. -/
def failForward (action : Action) (fault : Fault) (x : Handling ω σ) : Handling ω σ :=
  let f := x.node.forwarder
  (x.setForwarder { f with failures := f.failures + 1 }).fail action fault

/-- Closes links that the pool is not told about. -/
def abandon (net : Network σ) (links : List (Option Link)) (x : Handling ω σ) : Handling ω σ :=
  let f := x.node.forwarder
  x.setForwarder { f with
    network := (links.filterMap id).foldl (fun s link ↦ net.close link s) f.network }

/-- Relays the packet to all followers.  Each slot takes the link that was obtained for it, also
when another relay failed; the fault is that of the first follower that failed. -/
def send (env : Environment ω σ) (x : Handling ω σ) : Option Fault × Handling ω σ :=
  let r := x.request
  if r.followers.isEmpty then (none, x)
  else
    let sent := x.node.forwarder.send env.network env.sendSchedule
      (Follower.relayFrame r.packet) r.followers
    let results := sent.1.take r.slots.length
    let beyond := (sent.1.drop r.slots.length).map Prod.fst
    let x := ({ x with request := { r with slots := results.map Prod.fst } }.setForwarder
      sent.2).abandon env.network (r.slots ++ beyond)
    match Follower.firstFault results with
    | none => (none, x)
    | some fault => (some fault, x.failForward .sendToFollowers fault)

/-- The action during which a fault among the replies is reported. -/
def receiveAction : Fault → Action
  | .unlinked _ => .linkMissing
  | _ => .receiveFromFollower

def receive (env : Environment ω σ) (x : Handling ω σ) : Option Fault × Handling ω σ :=
  let r := x.request
  if r.followers.isEmpty then (none, x)
  else
    let received := x.node.forwarder.receive env.network env.receiveSchedule
      r.packet.header.requestId r.followers r.slots
    let x := { x with request := { r with slots := received.1.map Prod.fst } }.setForwarder received.2
    match Follower.firstFault received.1 with
    | none => (none, x)
    | some fault => (some fault, x.failForward (receiveAction fault) fault)

def settle (net : Network σ) (ok : Bool) (f : Forwarder σ) :
    String × Option Link → Forwarder σ
  | (_, none) => f
  | (address, some link) =>
    if ok then f.release net address link true else f.destroy net link

/-- Settles all links of the packet: they are reused when the whole chain succeeded and closed
otherwise. -/
def finish (env : Environment ω σ) (ok : Bool) (x : Handling ω σ) : Handling ω σ :=
  let r := x.request
  let f := (r.followers.zip r.slots).foldl (settle env.network ok) x.node.forwarder
  { x with request := { r with slots := [] } }.setForwarder f

/-! ## Storage -/

def operationOf (p : Packet) : Except Fault Extent.Operation :=
  let h := p.header
  match h.opcode with
  | .write =>
    match p.verifyChecksum with
    | .error fault => .error fault
    | .ok _ => .ok (.write h.partition h.extent h.offset p.payload)
  | .read | .extentRepairRead | .streamRead => .ok (.read h.partition h.extent h.offset h.size)
  | .createExtent => .ok (.createExtent h.partition h.extent)
  | .markDelete => .ok (.markDelete h.partition h.extent)
  | .getAllWaterMark => .ok (.watermarks h.partition h.extentMode)
  | .notifyExtentRepair => .ok (.notifyRepair h.partition)
  | .createDataPartition | .deleteDataPartition | .loadDataPartition | .dataNodeHeartbeat
  | .offlineDataPartition => .ok (.command h.opcode h.partition)
  | .ok | .unknown _ => .error (.unknownOpcode h.opcode.toByte)

def perform (env : Environment ω σ) (x : Handling ω σ) :
    Except Fault Extent.Answer × Handling ω σ :=
  match operationOf x.request.packet with
  | .error fault => (.error fault, x)
  | .ok op =>
    match env.engine op x.node.store with
    | (.ok a, store) => (.ok a, { x with node := { x.node with store } })
    | (.error fault, store) =>
      (.error (.storage fault), { x with node := { x.node with store } })

/-- The pieces in which bytes are streamed: whole blocks and a rest, or one empty piece. -/
def streamPieces (b : ByteArray) : List ByteArray :=
  if b.size = 0 then [b] else Bytes.pieces blockSize b

def streamFrame (now : Int64) (request : Wire.Header) (offset : Int64) (piece : ByteArray) :
    Packet :=
  let p := (Packet.streamReply now request.requestId request.partition request.extent).replyWith
    piece
  { p with header := { p.header with offset } }

/-- Writes the pieces of a streamed answer, the first of which lies at `offset`. -/
def streamTo (now : Int64) (request : Wire.Header) (offset : Int64) (k : Sink) :
    List ByteArray → Option Fault × Sink
  | [] => (none, k)
  | piece :: rest =>
    match (streamFrame now request offset piece).writeTo k with
    | (.error fault, k) => (some fault, k)
    | (.ok _, k) => streamTo now request (offset + .ofInt piece.size) k rest

def stream (now : Int64) (b : ByteArray) (x : Handling ω σ) : Option Fault × Handling ω σ :=
  let h := x.request.packet.header
  match streamTo now h h.offset x.client (streamPieces b) with
  | (some fault, client) => (some fault, { x with client })
  | (none, client) =>
    let x := { x with client }.answer Packet.replyOk
    (none, { x with request := { x.request with needsReply := false } })

/-- Applies the packet to the storage and makes its reply.  A fault is left over only when the
client's stream failed. -/
def operate (env : Environment ω σ) (x : Handling ω σ) : Option Fault × Handling ω σ :=
  match x.perform env with
  | (.error fault, x) => (none, x.fail .operate fault)
  | (.ok a, x) =>
    if x.request.packet.header.opcode.streamsReply then x.stream env.now a.body
    else (none, x.answer (Packet.replyWith a.body))

/-! ## The whole packet -/

/-- Collects and settles after the packet was applied, with the fault that applying it left. -/
def conclude (env : Environment ω σ) (fault : Option Fault) (x : Handling ω σ) :
    Handling ω σ :=
  if fault.isNone && x.request.isOk then
    let received := x.receive env
    received.2.finish env received.1.isNone
  else x.finish env false

/-- Relays, applies, collects and settles a packet whose followers are known. -/
def processResolved (env : Environment ω σ) (x : Handling ω σ) : Option Fault × Handling ω σ :=
  if x.request.isForward then
    match x.send env with
    | (some _, x) => (none, x.finish env false)
    | (none, x) =>
      let operated := x.operate env
      (operated.1, operated.2.conclude env operated.1)
  else x.operate env

/-- Handles a packet up to the reply. -/
def process (env : Environment ω σ) (x : Handling ω σ) : Option Fault × Handling ω σ :=
  if x.request.isMasterCommand then x.operate env
  else
    match x.resolve with
    | (some _, x) => (none, x)
    | (none, x) => x.processResolved env

/-- Writes the reply, unless the packet was answered already. -/
def reply (x : Handling ω σ) : Option Fault × Handling ω σ :=
  if x.request.needsReply then
    match x.request.packet.writeTo x.client with
    | (.ok _, client) => (none, { x with client })
    | (.error fault, client) => (some fault, { x with client })
  else (none, x)

end Handling

end ReplicaChain
