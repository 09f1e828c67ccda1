import ReplicaChain.Node.Startup
import ReplicaChain.Proofs.Cluster.World
import ReplicaChain.Proofs.Node.ConnectionFold
import ReplicaChain.Proofs.Node.Task

/-!
# A node and its followers move by move

A node relays packets for several clients at once, each of which sends its next packet when the last one
was answered.  Between any two acts of one packet the node may act on other packets, and followers may
answer what has reached them: on every line the frames one after another, and on different lines in any
order.  A line that the node has closed still delivers what was written on it.
-/

namespace ReplicaChain.Cluster

open Follower (SendStage ReceiveStage)
open Handling (Act Stage)
open Wire (Packet)

variable {ω τ : Type}

/-! ## Groups -/

/-- A packet that a node is relaying for a client. -/
structure Task where
  /-- How many packets were begun before. -/
  index : Nat
  /-- The packet as it was read. -/
  packet : Packet
  request : Request
  stage : Stage

/-- A node among its followers, with the packets that it is relaying, at most one for each client. -/
structure Group (ω τ : Type) where
  primary : Node ω (World ω τ)
  clients : List (Option Task)
  /-- The packets begun so far, the oldest first. -/
  begun : List Packet
  /-- The replies given so far, each with the index of its packet, the newest first. -/
  answers : List (Nat × Packet)

inductive Move (ω τ : Type) where
  /-- The node reads a packet that a client has sent. -/
  | begins (client : Nat) (p : Packet)
  /-- The node goes on with the packet of a client. -/
  | acts (client : Nat) (act : Act)
  /-- The node settles the links of a packet and answers the client. -/
  | leaves (client : Nat)
  /-- A follower answers the next frame on a line. -/
  | answers (number : Nat) (turn : Turn ω τ)

/-- The node after a packet was answered, with the buffer of the packet given back. -/
def closed {σ : Type} (elapsed : Latency.Duration) (p : Packet) (x : Handling ω σ) : Node ω σ :=
  let n := (x.stopTimer elapsed).node.finish
  n.setBuffers (n.forwarder.buffers.release p.data)

/-- Once a packet was processed for a client that takes everything, its reply is written. -/
theorem handle_eq_closed {σ : Type} {env : Environment ω σ} {p : Packet} {n : Node ω σ}
    {y : Handling ω σ} (hy : (Node.opening env p n .unbounded).process env = (none, y))
    (hclient : y.client = .unbounded) (hneeds : y.request.needsReply = true) :
    Node.handle env p n .unbounded =
      (none, closed env.elapsed p y, Sink.unbounded.append y.request.packet.frame) := by
  obtain ⟨code, body, hreply⟩ := Handling.answers_process hy
  let z := y.stopTimer env.elapsed
  have hz : z.request.packet = y.request.packet ∧ z.client = .unbounded ∧
      z.request.needsReply = true := by
    simp only [z, Handling.stopTimer]
    split <;> exact ⟨rfl, hclient, hneeds⟩
  have hwrite : z.request.packet.writeTo z.client =
      (.ok (), Sink.unbounded.append y.request.packet.frame) := by
    rw [hz.1, hz.2.1, hreply, Packet.writeTo, Packet.encode_reply]
    exact Sink.write_of_room_eq_none rfl _
  have hreplied : z.reply =
      (none, { z with client := Sink.unbounded.append y.request.packet.frame }) := by
    rw [Handling.reply, if_pos hz.2.2, hwrite]
  unfold Node.opening at hy
  unfold Node.handle
  simp only [hy, z] at hreplied ⊢
  rw [hreplied]
  rfl

namespace Group

def world (g : Group ω τ) : World ω τ :=
  g.primary.forwarder.network

/-- A node among its followers that relays nothing for any of `n` clients. -/
def idle (primary : Node ω (World ω τ)) (n : Nat) : Group ω τ :=
  ⟨primary, .replicate n none, [], []⟩

/-- What the node works on when it goes on with a task. -/
def handling (t : Task) (g : Group ω τ) : Handling ω (World ω τ) :=
  ⟨t.request, g.primary, .unbounded⟩

def put (client : Nat) (t : Task) (s : Stage × Handling ω (World ω τ)) (g : Group ω τ) :
    Group ω τ :=
  { g with
    primary := s.2.node
    clients := g.clients.set client (some { t with request := s.2.request, stage := s.1 }) }

def setWorld (w : World ω τ) (g : Group ω τ) : Group ω τ :=
  { g with
    primary := { g.primary with forwarder := { g.primary.forwarder with network := w } } }

/-- Whether an act does not wait for a reply that has not arrived. -/
def isReady (g : Group ω τ) : Stage → Act → Bool
  | .collecting replies, .exchange i =>
    match replies[i]? with
    | some (_, .pending (some link)) =>
      (g.world.lines link.number).elim true fun line ↦ line.inbound.size ≠ 0
    | _ => true
  | _, _ => true

/-- One move, if it is possible.  A packet that is not relayed is no move of its own. -/
def step (env : Environment ω (World ω τ)) (g : Group ω τ) : Move ω τ → Option (Group ω τ)
  | .begins client p =>
    match g.clients[client]?, Request.parseFollowers p with
    | some none, .ok addresses =>
      let buffers := (Packet.decode g.primary.forwarder.buffers (.ofBytes p.frame)).2.1
      let x := Node.opening env p (g.primary.setBuffers buffers) .unbounded
      if !x.request.isMasterCommand && x.request.isForward then
        let s := x.departing addresses
        some { g.put client ⟨g.begun.length, p, s.2.request, s.1⟩ s with begun := g.begun ++ [p] }
      else none
    | _, _ => none
  | .acts client a =>
    match g.clients[client]? with
    | some (some t) =>
      if g.isReady t.stage a then
        (Handling.act env (t.stage, g.handling t) a).map fun s ↦ g.put client t s
      else none
    | _ => none
  | .leaves client =>
    match g.clients[client]? with
    | some (some t) =>
      match t.stage with
      | .leaving ok =>
        some { g with
          primary := closed env.elapsed t.packet ((g.handling t).finish env ok)
          clients := g.clients.set client none
          answers := (t.index, t.request.packet) :: g.answers }
      | _ => none
    | _ => none
  | .answers number turn => some (g.setWorld (g.world.answer number turn))

section Step

variable {env : Environment ω (World ω τ)} {g g' : Group ω τ} {client : Nat}

/-- A packet is begun for a client whose last packet was answered, and only if it is to be relayed. -/
theorem step_begins {p : Packet} (h : g.step env (.begins client p) = some g') :
    g.clients[client]? = some none ∧ ∃ followers buffers,
      buffers = (Packet.decode g.primary.forwarder.buffers (.ofBytes p.frame)).2.1 ∧
      Request.parseFollowers p = .ok followers ∧ p.header.opcode.isMaster = false ∧
      (Request.ofPacket p).isForward = true ∧
      let s := (Node.opening env p (g.primary.setBuffers buffers) .unbounded).departing followers
      g' = { g.put client ⟨g.begun.length, p, s.2.request, s.1⟩ s with begun := g.begun ++ [p] } := by
  simp only [step] at h
  split at h
  · rename_i followers hidle hparse
    split at h
    · rename_i hguard
      obtain ⟨hmaster, hforward⟩ : _ ∧ _ := by
        simpa only [Bool.and_eq_true, Bool.not_eq_true'] using hguard
      exact ⟨hidle, followers, _, rfl, hparse, hmaster, hforward, (Option.some.inj h).symm⟩
    · cases h
  · cases h

theorem step_acts {a : Act} (h : g.step env (.acts client a) = some g') :
    ∃ t s, g.clients[client]? = some (some t) ∧ g.isReady t.stage a = true ∧
      Handling.act env (t.stage, g.handling t) a = some s ∧ g' = g.put client t s := by
  simp only [step] at h
  split at h
  · rename_i t ht
    split at h
    · rename_i hready
      obtain ⟨s, hs, rfl⟩ := Option.map_eq_some_iff.mp h
      exact ⟨t, s, ht, hready, hs, rfl⟩
    · cases h
  · cases h

theorem step_leaves (h : g.step env (.leaves client) = some g') :
    ∃ t ok, g.clients[client]? = some (some t) ∧ t.stage = .leaving ok ∧ g' = { g with
      primary := closed env.elapsed t.packet ((g.handling t).finish env ok)
      clients := g.clients.set client none
      answers := (t.index, t.request.packet) :: g.answers } := by
  simp only [step] at h
  split at h
  · rename_i t ht
    split at h
    · rename_i ok hstage
      exact ⟨t, ok, ht, hstage, (Option.some.inj h).symm⟩
    · cases h
  · cases h

theorem length_clients_step {m : Move ω τ} (h : g.step env m = some g') :
    g'.clients.length = g.clients.length := by
  cases m with
  | begins client p =>
    obtain ⟨-, followers, buffers, -, -, -, -, rfl⟩ := step_begins h
    exact List.length_set
  | acts client a =>
    obtain ⟨t, s, -, -, -, rfl⟩ := step_acts h
    exact List.length_set
  | leaves client =>
    obtain ⟨t, ok, -, -, rfl⟩ := step_leaves h
    exact List.length_set
  | answers number turn =>
    obtain rfl := Option.some.inj h
    rfl

end Step

def run (env : Environment ω (World ω τ)) : List (Move ω τ) → Group ω τ → Option (Group ω τ)
  | [], g => some g
  | m :: moves, g => (g.step env m).bind (run env moves)

theorem run_append (env : Environment ω (World ω τ)) (moves moves' : List (Move ω τ))
    (g : Group ω τ) : run env (moves ++ moves') g = (run env moves g).bind (run env moves') := by
  induction moves generalizing g with
  | nil => rfl
  | cons m moves ih =>
    simp only [List.cons_append, run]
    cases g.step env m with
    | none => rfl
    | some g₁ => exact ih g₁

/-- A property of every move of a run, the group before it and the group after it. -/
def Along (env : Environment ω (World ω τ)) (P : Group ω τ → Move ω τ → Group ω τ → Prop) :
    List (Move ω τ) → Group ω τ → Prop
  | [], _ => True
  | m :: moves, g => ∀ g' ∈ g.step env m, P g m g' ∧ Along env P moves g'

instance instDecidableAlong (env : Environment ω (World ω τ))
    (P : Group ω τ → Move ω τ → Group ω τ → Prop) [∀ g m g', Decidable (P g m g')] :
    (moves : List (Move ω τ)) → (g : Group ω τ) → Decidable (Along env P moves g)
  | [], _ => inferInstanceAs (Decidable True)
  | m :: moves, g =>
    match h : g.step env m with
    | none => isTrue (by simp [Along, h])
    | some g' =>
      have := instDecidableAlong env P moves g'
      decidable_of_iff (P g m g' ∧ Along env P moves g') (by simp [Along, h])

/-- What every move of a run keeps holds at its end. -/
theorem run_induction {env : Environment ω (World ω τ)} {P : Group ω τ → Move ω τ → Group ω τ → Prop}
    {Inv : Group ω τ → Prop} {moves : List (Move ω τ)} {g g' : Group ω τ}
    (hstep : ∀ g m g', m ∈ moves → Inv g → g.step env m = some g' → P g m g' → Inv g')
    (hrun : run env moves g = some g') (halong : Along env P moves g) (hg : Inv g) : Inv g' := by
  induction moves generalizing g with
  | nil =>
    obtain rfl := Option.some.inj hrun
    exact hg
  | cons m moves ih =>
    obtain ⟨g₁, hg₁, hrest⟩ := Option.bind_eq_some_iff.mp hrun
    obtain ⟨hP, halong'⟩ := halong g₁ hg₁
    exact ih (fun g m' g' hm ↦ hstep g m' g' (List.mem_cons_of_mem m hm)) hrest halong'
      (hstep g m g₁ List.mem_cons_self hg hg₁ hP)

def Idle (g : Group ω τ) : Prop :=
  ∀ o ∈ g.clients, o = none

/-- No packet is being relayed, and on every link so far the follower has read what was sent to it. -/
def Quiet (g : Group ω τ) : Prop :=
  g.Idle ∧ ∀ number < g.primary.forwarder.links.nextNumber, ∀ line ∈ g.world.lines number,
    line.outbound = .empty

instance (g : Group ω τ) : Decidable g.Quiet :=
  inferInstanceAs (Decidable ((∀ o ∈ g.clients, o = none) ∧ _))

/-! ## Runs without interruption -/

section Uninterrupted

variable {env : Environment ω (World ω τ)} {g g' : Group ω τ} {client : Nat}

theorem put_put (client : Nat) (t : Task) (s s' : Stage × Handling ω (World ω τ)) (g : Group ω τ) :
    (g.put client t s).put client { t with request := s.2.request, stage := s.1 } s' =
      g.put client t s' := by
  simp only [put, List.set_set]

/-- Acts of a packet between which nothing else happens. -/
theorem run_acts {t : Task} {s : Stage × Handling ω (World ω τ)} {acts : List Act}
    (hlength : client < g.clients.length) (hs : Handling.Unanswered s)
    (h : run env (acts.map (.acts client)) (g.put client t s) = some g') :
    ∃ s', Handling.follow env acts s = some s' ∧ Handling.Unanswered s' ∧
      g' = g.put client t s' := by
  induction acts generalizing s with
  | nil => exact ⟨s, rfl, hs, (Option.some.inj h).symm⟩
  | cons a acts ih =>
    obtain ⟨g₁, hstep, hrest⟩ := Option.bind_eq_some_iff.mp h
    obtain ⟨u, s₁, hu, -, hact, rfl⟩ := step_acts hstep
    obtain rfl : { t with request := s.2.request, stage := s.1 } = u := by
      simpa [put, hlength] using hu
    have hhandling : handling { t with request := s.2.request, stage := s.1 } (g.put client t s) =
        s.2 := by
      simp only [handling, put, ← hs.client_eq]
    rw [hhandling] at hact
    rw [put_put] at hrest
    obtain ⟨s', hfollow, hs', rfl⟩ := ih (hs.act hact) hrest
    exact ⟨s', Option.bind_eq_some_iff.mpr ⟨s₁, hact, hfollow⟩, hs', rfl⟩

/-- A packet that is relayed without interruption is answered as a node answers a frame that it reads on
a connection, on some schedules of its exchanges. -/
theorem answerFrame_of_run {p : Packet} {acts : List Act} (hp : p.Decodable)
    (h : run env (.begins client p :: (acts.map (.acts client) ++ [.leaves client])) g = some g') :
    ∃ sendSchedule receiveSchedule reply,
      Node.answerFrame { env with sendSchedule, receiveSchedule } g.primary p.frame =
        (g'.primary, reply.frame) ∧
      g' = { g with
        primary := g'.primary
        begun := g.begun ++ [p]
        answers := (g.begun.length, reply) :: g.answers } := by
  obtain ⟨g₁, hbegins, hrest⟩ := Option.bind_eq_some_iff.mp h
  obtain ⟨hidle, followers, buffers, hbuffers, hparse, hmaster, hforward, rfl⟩ := step_begins hbegins
  obtain ⟨hlength, -⟩ := List.getElem?_eq_some_iff.mp hidle
  let x := Node.opening env p (g.primary.setBuffers buffers) .unbounded
  have hunanswered : Handling.Unanswered (x.departing followers) :=
    ⟨rfl, rfl, fun _ _ ↦ Handling.streamsReply_of_isForward hforward⟩
  rw [run_append] at hrest
  obtain ⟨g₂, hacts, hleaves⟩ := Option.bind_eq_some_iff.mp hrest
  obtain ⟨⟨stage, y⟩, hfollow, hanswered, rfl⟩ :=
    run_acts (g := { g with begun := g.begun ++ [p] }) hlength hunanswered hacts
  obtain ⟨g₃, hstep, hend⟩ := Option.bind_eq_some_iff.mp hleaves
  obtain rfl := Option.some.inj hend
  obtain ⟨u, ok, hu, hstage, rfl⟩ := step_leaves hstep
  obtain rfl : (⟨g.begun.length, p, y.request, stage⟩ : Task) = u := by
    simpa [put, hlength] using hu
  obtain rfl : stage = .leaving ok := hstage
  have hy : (⟨y.request, y.node, .unbounded⟩ : Handling ω (World ω τ)) = y := by
    simp only [← hanswered.client_eq]
  obtain ⟨sends, receives, hprocess⟩ :=
    Handling.process_of_follow (x := x) ⟨hmaster, hparse, hforward⟩ hfollow
  let scheduled : Environment ω (World ω τ) :=
    { env with sendSchedule := sends, receiveSchedule := receives }
  have hprocess : (Node.opening scheduled p (g.primary.setBuffers buffers) .unbounded).process
      scheduled = (none, y.finish env ok) := hprocess
  have hhandle := handle_eq_closed hprocess hanswered.client_eq hanswered.needsReply
  obtain ⟨buffers', rest, hdecode, -⟩ := hp.isFrame.decode g.primary.forwarder.buffers
  refine ⟨sends, receives, y.request.packet, ?_, ?_⟩
  · rw [hdecode] at hbuffers
    subst hbuffers
    change Node.answerFrame scheduled g.primary p.frame = _
    rw [Node.answerFrame, hdecode]
    simp only [hhandle, handling, put, hy]
    exact congrArg _ ByteArray.empty_append
  · simp only [put, handling, List.set_set, Follower.set_of_getElem?_eq hidle]

end Uninterrupted

end Group

end ReplicaChain.Cluster
