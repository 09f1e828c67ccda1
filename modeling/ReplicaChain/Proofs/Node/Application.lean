import ReplicaChain.Proofs.Follower.Relay
import ReplicaChain.Proofs.Node.Answering

/-!
# Applying a packet

What a packet does to a storage and how it is answered depends on the packet and the storage alone.
It depends neither on how many followers the packet was on its way to nor on their names, so a node
and its followers do the same with a packet and with the copy that was relayed.
-/

namespace ReplicaChain

open Wire (Packet)

variable {ω σ : Type}

namespace Handling

/-! ## The effect of a packet -/

/-- What the operation of a packet gives back, and the storage after it. -/
def performed (engine : Extent.Engine ω) (p : Packet) (store : ω) :
    Except Fault Extent.Answer × ω :=
  match operationOf p with
  | .error fault => (.error fault, store)
  | .ok op => ((engine op store).1.mapError .storage, (engine op store).2)

/-- The reply to a packet that is applied to a storage, and the storage after it. -/
def applied (engine : Extent.Engine ω) (p : Packet) (store : ω) : Packet × ω :=
  match performed engine p store with
  | (.error fault, store) => (p.replyFault .operate fault, store)
  | (.ok a, store) => (p.replyWith a.body, store)

theorem exists_applied_eq_reply (engine : Extent.Engine ω) (p : Packet) (store : ω) :
    ∃ code body, (applied engine p store).1 = p.reply code body := by
  unfold applied
  split <;> exact ⟨_, _, rfl⟩

/-- What a packet asks of the storage has nothing to do with its followers. -/
theorem performed_alone (engine : Extent.Engine ω) (p : Packet) (store : ω) :
    performed engine p.alone store = performed engine p store := rfl

theorem applied_alone (engine : Extent.Engine ω) (p : Packet) (store : ω) :
    applied engine p.alone store =
      ((applied engine p store).1.alone, (applied engine p store).2) := by
  unfold applied
  rw [performed_alone]
  split <;> rfl

variable {env : Environment ω σ} {x : Handling ω σ} {p : Packet}

theorem perform_eq_performed (env : Environment ω σ) (x : Handling ω σ) :
    x.perform env = ((performed env.engine x.request.packet x.node.store).1,
      { x with node := { x.node with
        store := (performed env.engine x.request.packet x.node.store).2 } }) := by
  unfold perform performed
  rcases operationOf x.request.packet with fault | op
  · rfl
  · dsimp only
    rcases env.engine op x.node.store with ⟨_ | _, store⟩ <;> rfl

/-- A packet that is not answered as a stream is applied and turned into its reply. -/
theorem exists_operate_eq (env : Environment ω σ)
    (hs : x.request.packet.header.opcode.streamsReply = false) :
    ∃ y, x.operate env = (none, y) ∧
      y.request = { x.request with
        packet := (applied env.engine x.request.packet x.node.store).1 } ∧
      y.node.store = (applied env.engine x.request.packet x.node.store).2 ∧
      y.node.forwarder = x.node.forwarder ∧ y.client = x.client := by
  have hperform := perform_eq_performed env x
  unfold applied
  generalize performed env.engine x.request.packet x.node.store = outcome at hperform ⊢
  obtain ⟨fault | a, store⟩ := outcome
  · exact ⟨_, operate_of_error hperform, rfl, rfl, rfl, rfl⟩
  · exact ⟨_, operate_of_ok hperform hs, rfl, rfl, rfl, rfl⟩

/-! ## Packets without followers -/

/-- The packet is one that a node relays if it has followers to relay it to. -/
structure Relayable (p : Packet) : Prop where
  decodable : p.Decodable
  not_master : p.header.opcode.isMaster = false
  not_streamed : p.header.opcode.streamsReply = false

theorem parseFollowers_alone (p : Packet) : Request.parseFollowers p.alone = .ok [] := by
  have hparse : Follower.parse p.alone.argument p.alone.header.argumentSize.toNat = .ok [] := rfl
  have hcount : Follower.checkHopCount p.alone.header.remaining = .ok () := rfl
  simp only [Request.parseFollowers, hparse, hcount]

/-- A packet without followers is only applied. -/
theorem process_alone (hx : x.request.packet = p.alone) (hm : p.header.opcode.isMaster = false) :
    x.process env = (x.resolved []).operate env := by
  have hparse : Request.parseFollowers x.request.packet = .ok [] := by
    rw [hx, parseFollowers_alone]
  have hmaster : x.request.isMasterCommand = false := by
    rw [Request.isMasterCommand, hx]
    exact hm
  rw [process_of_parse_ok hmaster hparse]
  apply processResolved_of_local
  rw [isForward_resolved, Request.isForward, hx]
  rfl

end Handling

namespace Node

open Handling (applied Relayable)

/-- The state in which a node begins to handle a packet. -/
def opening (env : Environment ω σ) (p : Packet) (n : Node ω σ) (k : Sink) : Handling ω σ :=
  (⟨.ofPacket p, n.begin, k⟩ : Handling ω σ).startTimer env.cluster

theorem node_reply (x : Handling ω σ) : x.reply.2.node = x.node := by
  unfold Handling.reply
  split
  · split <;> rfl
  · rfl

theorem store_stopTimer (elapsed : Latency.Duration) (x : Handling ω σ) :
    (x.stopTimer elapsed).node.store = x.node.store := by
  unfold Handling.stopTimer
  split <;> rfl

theorem forwarder_stopTimer (elapsed : Latency.Duration) (x : Handling ω σ) :
    (x.stopTimer elapsed).node.forwarder = x.node.forwarder := by
  unfold Handling.stopTimer
  split <;> rfl

/-- After a packet was processed, the node keeps its storage and what it needs for talking to
followers; only the buffer of the packet is given back. -/
theorem handle_node (env : Environment ω σ) (p : Packet) (n : Node ω σ) (k : Sink) :
    let y := ((opening env p n k).process env).2
    (handle env p n k).2.1.store = y.node.store ∧
      (handle env p n k).2.1.forwarder =
        { y.node.forwarder with buffers := y.node.forwarder.buffers.release p.data } := by
  rcases hp : (opening env p n k).process env with ⟨fault, y⟩
  have hprocess : ((⟨.ofPacket p, n.begin, k⟩ : Handling ω σ).startTimer env.cluster).process env =
      (fault, y) := hp
  dsimp only
  rw [← store_stopTimer env.elapsed y, ← forwarder_stopTimer env.elapsed y]
  unfold handle
  simp only [hprocess]
  cases fault with
  | some fault => exact ⟨rfl, rfl⟩
  | none =>
    rw [← node_reply (y.stopTimer env.elapsed)]
    rcases (y.stopTimer env.elapsed).reply with ⟨_ | fault, z⟩ <;> exact ⟨rfl, rfl⟩

theorem reply_stopTimer (elapsed : Latency.Duration) (x : Handling ω σ) :
    (x.stopTimer elapsed).reply.1 = x.reply.1 ∧
      (x.stopTimer elapsed).reply.2.client = x.reply.2.client := by
  unfold Handling.stopTimer
  split
  · exact ⟨rfl, rfl⟩
  · unfold Handling.reply
    dsimp only
    split
    · rcases x.request.packet.writeTo x.client with ⟨_ | _, k⟩ <;> exact ⟨rfl, rfl⟩
    · exact ⟨rfl, rfl⟩

theorem reply_of_writeTo {x : Handling ω σ} {k : Sink} {result : Except Fault Unit}
    (hneeds : x.request.needsReply = true) (hw : x.request.packet.writeTo x.client = (result, k)) :
    x.reply.1.isNone = result.isOk ∧ x.reply.2.client = k := by
  rw [Handling.reply, if_pos hneeds, hw]
  cases result <;> exact ⟨rfl, rfl⟩

/-- Once a packet was processed without a fault, it is answered by writing the reply. -/
theorem handle_of_process {env : Environment ω σ} {p : Packet} {n : Node ω σ} {k : Sink}
    {y : Handling ω σ} (hy : (opening env p n k).process env = (none, y)) :
    (handle env p n k).1 = y.reply.1 ∧ (handle env p n k).2.2 = y.reply.2.client := by
  have hprocess : ((⟨.ofPacket p, n.begin, k⟩ : Handling ω σ).startTimer env.cluster).process env =
    (none, y) := hy
  obtain ⟨hfault, hclient⟩ := reply_stopTimer env.elapsed y
  unfold handle
  simp only [hprocess]
  rw [← hfault, ← hclient]
  rcases (y.stopTimer env.elapsed).reply with ⟨_ | fault, z⟩ <;> exact ⟨rfl, rfl⟩

/-- Handling a packet without followers applies it and writes the one reply to it.  Whether a fault
is left over tells whether the reply was written. -/
theorem handle_alone (env : Environment ω σ) {p : Packet} (hp : Relayable p) (n : Node ω σ)
    {k k' : Sink} {result : Except Fault Unit}
    (hw : k.write (applied env.engine p.alone n.store).1.frame = (result, k')) :
    (handle env p.alone n k).1.isNone = result.isOk ∧
      (handle env p.alone n k).2.1.store = (applied env.engine p.alone n.store).2 ∧
      (handle env p.alone n k).2.2 = k' := by
  let x := (opening env p.alone n k).resolved []
  have hstreams : x.request.packet.header.opcode.streamsReply = false := hp.not_streamed
  obtain ⟨y, ho, hrequest, hstore, -, hclient⟩ := Handling.exists_operate_eq env hstreams
  have hprocess : (opening env p.alone n k).process env = (none, y) :=
    (Handling.process_alone rfl hp.not_master).trans ho
  obtain ⟨code, body, happlied⟩ := Handling.exists_applied_eq_reply env.engine p.alone n.store
  have hencode : y.request.packet.writeTo y.client = (result, k') := by
    rw [hrequest, hclient]
    change (applied env.engine p.alone n.store).1.writeTo k = _
    rw [happlied] at hw ⊢
    rw [Packet.writeTo, Packet.encode_reply]
    exact hw
  have hneeds : y.request.needsReply = true := by rw [hrequest]; rfl
  obtain ⟨hfault, hsink⟩ := handle_of_process hprocess
  obtain ⟨hisNone, hk'⟩ := reply_of_writeTo hneeds hencode
  refine ⟨by rw [hfault, hisNone], ?_, hsink.trans hk'⟩
  rw [(handle_node env p.alone n k).1, hprocess]
  exact hstore

end Node

end ReplicaChain
