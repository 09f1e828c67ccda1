import ReplicaChain.Node.Connection

/-!
# A node among nodes

A network on which every follower is itself a node that serves its connections.  The bytes of a link
are on the way in both directions.  A follower answers the frames that have reached it one after
another, and everything else is left to fate: when it answers, how much of a write gets through, how
much of an answer arrives before the reader's deadline and in which pieces, whether a dial succeeds,
and when a follower hangs up or is changed by clients of its own.

Every line remembers what happened on it.  The memory decides nothing; it is there to say in which
state a link is left.
-/

namespace ReplicaChain.Cluster

open Follower (Link)
open Wire (Packet)

variable {ω τ : Type}

/-! ## Lines -/

/-- Something that happened on a line. -/
inductive Passage where
  /-- The node wrote a frame, all of it or not. -/
  | asked (frame : ByteArray) (whole : Bool)
  /-- The follower read a frame and wrote bytes in return. -/
  | answered (frame reply : ByteArray)
  /-- The node read bytes. -/
  | collected (bytes : ByteArray)
  deriving DecidableEq

structure Line where
  link : Link
  /-- Bytes of the node that the follower has not read. -/
  outbound : ByteArray
  /-- Bytes of the follower that the node has not read. -/
  inbound : ByteArray
  /-- How many of them a reader was offered that has not said what it left. -/
  offered : Nat
  /-- Whether the follower serves the line. -/
  served : Bool
  /-- Whether the node closed the line. -/
  closed : Bool
  /-- What happened on the line, the newest first. -/
  history : List Passage

def Line.fresh (link : Link) : Line :=
  ⟨link, .empty, .empty, 0, true, false, []⟩

/-! ## Fates -/

/-- How a follower answers one frame: what it runs on, and how much the line takes of its reply. -/
structure Turn (ω τ : Type) where
  env : Environment ω τ
  room : Option Nat
  refusal : IoFault

/-- Something that followers do by themselves. -/
inductive Happening (ω τ : Type) where
  /-- A follower answers the next frame on a line, if all of it has arrived. -/
  | answers (number : Nat) (turn : Turn ω τ)
  /-- A follower serves somebody else. -/
  | changes (address : String) (member : Node ω τ)
  /-- A follower ends its side of a line. -/
  | hangsUp (number : Nat)

/-- What is not up to the node when it uses the network once. -/
structure Fate (ω τ : Type) where
  /-- What followers do before. -/
  before : List (Happening ω τ)
  /-- How a dial turns out that may be decided at once. -/
  dial : Option Attempt
  /-- How a dial turns out that is waited for. -/
  await : Attempt
  /-- After how many bytes a write fails, if it does. -/
  refusal : Option (Nat × IoFault)
  /-- How the follower answers while the node waits for its reply, if it does. -/
  turn : Option (Turn ω τ)
  /-- How many bytes arrive in time, unless all of them do. -/
  arrived : Option Nat
  ending : Ending
  /-- The pieces in which bytes arrive. -/
  cut : ByteArray → List ByteArray
  join_cut : ∀ b, Source.join (cut b) = b

/-- The fate in which nothing goes wrong: every follower can be dialed and answers while the node
waits for it. -/
def Fate.kind (env : Environment ω τ) : Fate ω τ where
  before := []
  dial := some .succeeded
  await := .succeeded
  refusal := none
  turn := some ⟨env, none, ⟨.brokenPipe, "peer closed"⟩⟩
  arrived := none
  ending := .silent
  cut b := [b]
  join_cut b := by simp [Source.join]

/-! ## Worlds -/

/-- All nodes by their addresses, all lines by the numbers of their links, and the fates to come. -/
structure World (ω τ : Type) where
  members : String → Node ω τ
  lines : Nat → Option Line
  fates : Nat → Fate ω τ
  clock : Nat

namespace World

/-- A world without lines, in which every use of the network has the same fate. -/
def ofMembers (members : String → Node ω τ) (fate : Fate ω τ) : World ω τ :=
  ⟨members, fun _ ↦ none, fun _ ↦ fate, 0⟩

def setMember (address : String) (m : Node ω τ) (w : World ω τ) : World ω τ :=
  { w with members := fun a ↦ if a = address then m else w.members a }

def setLine (number : Nat) (line : Line) (w : World ω τ) : World ω τ :=
  { w with lines := fun i ↦ if i = number then some line else w.lines i }

/-- The follower of a line answers the next frame that has arrived on it. -/
def answer (number : Nat) (turn : Turn ω τ) (w : World ω τ) : World ω τ :=
  match w.lines number with
  | none => w
  | some line =>
    let m := w.members line.link.address
    match line.served, Packet.decode m.forwarder.buffers ⟨[line.outbound], .silent⟩ with
    | true, (.ok p, buffers, rest) =>
      let handled := Node.handle turn.env p (m.setBuffers buffers)
        ⟨.empty, turn.room, turn.refusal⟩
      let frame := Bytes.take (line.outbound.size - rest.size) line.outbound
      (w.setMember line.link.address handled.2.1).setLine number {
        line with
        outbound := rest.bytes
        inbound := line.inbound ++ handled.2.2.written
        served := handled.1.isNone
        history := .answered frame handled.2.2.written :: line.history }
    | _, _ => w

def happen (w : World ω τ) : Happening ω τ → World ω τ
  | .answers number turn => w.answer number turn
  | .changes address m => w.setMember address m
  | .hangsUp number =>
    match w.lines number with
    | none => w
    | some line => w.setLine number { line with served := false }

/-- The fate of the next use of the network, and the world after what followers do before it. -/
def next (w : World ω τ) : Fate ω τ × World ω τ :=
  let fate := w.fates w.clock
  (fate, fate.before.foldl happen { w with clock := w.clock + 1 })

/-- The world in which a link was dialed if an attempt succeeded. -/
def dialed (link : Link) (a : Attempt) (w : World ω τ) : World ω τ :=
  if a = .succeeded then w.setLine link.number (.fresh link) else w

end World

/-! ## The network -/

def notConnected : IoFault :=
  ⟨.notConnected, IoKind.description .notConnected⟩

/-- Writes a frame on a line, all of it unless the line fails after `n` bytes. -/
def Line.ask (frame : ByteArray) (refusal : Option (Nat × IoFault)) (line : Line) : Line :=
  match refusal with
  | none =>
    { line with
      outbound := line.outbound ++ frame
      history := .asked frame true :: line.history }
  | some (n, _) =>
    { line with
      outbound := line.outbound ++ Bytes.take n frame
      history := .asked frame false :: line.history }

/-- What arrives of the bytes that are on their way to the node. -/
def Line.arriving (arrived : Option Nat) (line : Line) : ByteArray :=
  arrived.elim line.inbound (Bytes.take · line.inbound)

/-- Takes note that a reader is done and left `n` bytes of what it was offered. -/
def Line.collect (n : Nat) (line : Line) : Line :=
  { line with
    inbound := Bytes.drop (line.offered - n) line.inbound
    offered := 0
    history := .collected (Bytes.take (line.offered - n) line.inbound) :: line.history }

/-- The network whose followers are the members of a world. -/
def network : Network (World ω τ) where
  dial link w :=
    let next := w.next
    (next.1.dial, next.1.dial.elim next.2 (next.2.dialed link ·))
  await link w :=
    let next := w.next
    (next.1.await, next.2.dialed link next.1.await)
  write link b w :=
    let next := w.next
    match next.2.lines link.number with
    | none => (.error notConnected, next.2)
    | some line =>
      (next.1.refusal.elim (.ok ()) fun refusal ↦ .error refusal.2,
        next.2.setLine link.number (line.ask b next.1.refusal))
  incoming link w :=
    let next := w.next
    let w := next.1.turn.elim next.2 (next.2.answer link.number ·)
    match w.lines link.number with
    | none => (⟨[], .failed notConnected⟩, w)
    | some line =>
      let arriving := line.arriving next.1.arrived
      (⟨next.1.cut arriving, next.1.ending⟩,
        w.setLine link.number { line with offered := arriving.size })
  leave link rest w :=
    match w.lines link.number with
    | none => w
    | some line => w.setLine link.number (line.collect rest.size)
  close link w :=
    match w.lines link.number with
    | none => w
    | some line => w.setLine link.number { line with closed := true }

end ReplicaChain.Cluster
