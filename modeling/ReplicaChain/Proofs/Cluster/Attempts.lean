import ReplicaChain.Proofs.Cluster.Remnants

/-!
# Attempts that may fail

A node is sent the same packet any number of times, and anything may go wrong: a dial or a write may fail, a
follower may hang up, be late or cut its reply short, and the client may be gone before it is answered.
However an attempt ends, every node has the storage from before the packet or the one from after it, no
follower loses what it has applied, and nothing is left on the lines but copies of the packet.
-/

namespace ReplicaChain

namespace Handling

open Follower

variable {ω σ : Type}

/-- Exchanges with followers are nothing to the storage. -/
theorem node_settleExchange (action : Fault → Wire.Action) (results : List (Option Link × Option Fault))
    (f : Forwarder σ) (x : Handling ω σ) :
    (x.settleExchange action results f).2.node.forwarder.network = f.network ∧
      (x.settleExchange action results f).2.node.store = x.node.store := by
  unfold settleExchange
  split <;> exact ⟨rfl, rfl⟩

theorem node_receive (env : Environment ω σ) (x : Handling ω σ) :
    ((x.receive env).2.node.forwarder.network = x.node.forwarder.network ∨
      (x.receive env).2.node.forwarder.network =
        (x.node.forwarder.collected env.network env.receiveSchedule
          x.request.packet.header.requestId x.request.followers x.request.slots).2.network) ∧
      (x.receive env).2.node.store = x.node.store := by
  unfold receive
  dsimp only
  split
  · exact ⟨.inl rfl, rfl⟩
  · rw [Forwarder.receive_eq_collected]
    split <;> exact ⟨.inr rfl, rfl⟩

end Handling

namespace Cluster

open Follower (Forwarder Link ReceiveStage Receiving SendStage Sending relayFrame)
open Handling (applied)
open Wire (Packet)

variable {ω τ : Type} {r : Retry ω} {f f' : Forwarder (World ω τ)} {address : String}
  {others : List Held}

/-! ## Exchanges -/

/-- A relay may fail at every step. -/
theorem World.Partway.sending {stage stage' : SendStage} (h : f.network.Partway r)
    (ha : Sending.Advances network (relayFrame r.packet) address stage f stage' f')
    (htidy : Tidy ((heldBySending r.packet (address, stage)).toList ++ others) f.links f.network) :
    f.network.Continues r f'.network := by
  cases ha with
  | refused hr | idle hr | settled => exact h.refl
  | dialing hr hd | dialed hr hd | undialed fault hr hd hfailed => exact h.dial hd
  | awaited hd | unawaited fault hd hfailed => exact h.await hd
  | written hw | unwritten hw => exact h.write htidy hw

theorem continues_relayed (schedule : List Nat) (followers : List String) (htidy : AtRest f)
    (h : f.network.Partway r) :
    f.network.Continues r (f.relayed network schedule (relayFrame r.packet) followers).2.network := by
  refine (Follower.runAll_induction (P := fun l g ↦
    Tidy (l.filterMap (heldBySending r.packet)) g.links g.network ∧
      f.network.Continues r g.network) ?_ _ ⟨?_, h.refl⟩).2
  · intro l g i address stage hi ⟨hl, hcontinues⟩
    obtain ⟨others, hold, hnew, -⟩ := Follower.exists_filterMap_perm (heldBySending r.packet) hi
    have hadvances := Sending.advances_advance network (relayFrame r.packet) address stage g
    have hnext := (hl.perm hold).sending r.relayable hadvances
    exact ⟨hnext.perm (hnew _).symm,
      hcontinues.trans (hcontinues.partway.sending hadvances (hl.perm hold))⟩
  · rw [filterMap_waiting]
    exact htidy

theorem World.Partway.receiving (requestId : Int64) (address : String) (stage : ReceiveStage)
    (h : f.network.Partway r) :
    f.network.Continues r (Receiving.advance network requestId address stage f).2.network := by
  rcases stage with (_ | link) | ⟨link, fault⟩
  · exact h.refl
  · rcases hi : network.incoming link f.network with ⟨s, w'⟩
    have hincoming := h.incoming hi
    have hleave (rest : Source) := hincoming.trans (hincoming.partway.leave link rest)
    rcases hd : Packet.decode f.buffers s with ⟨fault | reply, buffers, rest⟩ <;>
      simp only [Receiving.advance, Forwarder.receiveOne, hi, hd]
    · exact hleave rest
    · cases Follower.checkReply address requestId reply <;> exact hleave rest
  · exact h.refl

theorem continues_collected (schedule : List Nat) (requestId : Int64) (followers : List String)
    (slots : List (Option Link)) (h : f.network.Partway r) :
    f.network.Continues r
      (f.collected network schedule requestId followers slots).2.network := by
  refine Follower.runAll_induction (P := fun _ g ↦ f.network.Continues r g.network) ?_ _ h.refl
  intro l g i address stage _ hcontinues
  exact hcontinues.trans (hcontinues.partway.receiving requestId address stage)

theorem continues_settle (ok : Bool) (slots : List (String × Option Link)) (h : f.network.Partway r) :
    f.network.Continues r (slots.foldl (Handling.settle network ok) f).network := by
  induction slots generalizing f with
  | nil => exact h.refl
  | cons slot slots ih =>
    have hslot : f.network.Continues r (Handling.settle network ok f slot).network := by
      obtain ⟨address, _ | link⟩ := slot
      · exact h.refl
      · cases ok with
        | false => exact h.close link
        | true =>
          simp only [Handling.settle, if_true, Forwarder.release]
          split
          · exact h.refl
          · exact h.close link
    exact hslot.trans (ih hslot.partway)

/-! ## Attempts -/

/-- What is known of a node while a packet is sent to it again and again: it and its followers have one of
two storages. -/
structure Halfway (r : Retry ω) (n : Node ω (World ω τ)) : Prop where
  atRest : AtRest n.forwarder
  knows : r.Knows n.store
  partway : n.forwarder.network.Partway r

section Handling

variable {env : Environment ω (World ω τ)} {x y : Handling ω (World ω τ)}

/-- Nothing of what is known is lost. -/
def Advanced (r : Retry ω) (x y : Handling ω (World ω τ)) : Prop :=
  x.node.forwarder.network.Continues r y.node.forwarder.network ∧ r.Knows y.node.store

theorem Advanced.finish (henv : env.network = network) (h : Advanced r x y) (ok : Bool) :
    Advanced r x (y.finish env ok) := by
  have hsettle := continues_settle ok (y.request.followers.zip y.request.slots) h.1.partway
  rw [← henv] at hsettle
  exact ⟨h.1.trans hsettle, h.2⟩

theorem Advanced.conclude (henv : env.network = network) (h : Advanced r x y) (fault : Option Fault) :
    Advanced r x (y.conclude env fault) := by
  unfold Handling.conclude
  split
  · refine Advanced.finish henv ?_ _
    have hcollected := continues_collected env.receiveSchedule y.request.packet.header.requestId
      y.request.followers y.request.slots h.1.partway
    rw [← henv] at hcollected
    obtain ⟨hforwarder, hstore⟩ := Handling.node_receive env y
    rw [Advanced, hstore]
    rcases hforwarder with hforwarder | hforwarder <;> rw [hforwarder]
    · exact h
    · exact ⟨h.1.trans hcollected, h.2⟩
  · exact h.finish henv false

/-- However an attempt ends, every node has one of the two storages. -/
theorem advanced_process (henv : env.network = network) (hengine : env.engine = r.engine)
    (hpacket : x.request.packet = r.packet) (hforward : x.request.isForward = true)
    (hx : AtRest x.node.forwarder) (hknows : r.Knows x.node.store)
    (h : x.node.forwarder.network.Partway r) : Advanced r x (x.process env).2 := by
  have hm : x.request.isMasterCommand = false := by
    rw [Request.isMasterCommand, hpacket]
    exact r.relayable.not_master
  have hparse : Request.parseFollowers x.request.packet = .ok r.followers := hpacket ▸ r.parse_eq
  have hforward' : (x.resolved r.followers).request.isForward = true := hforward
  have hrelayed := continues_relayed env.sendSchedule r.followers hx h
  have hnode : ((x.resolved r.followers).send env).2.node.forwarder.network =
      (x.node.forwarder.relayed network env.sendSchedule (relayFrame r.packet) r.followers).2.network ∧
      ((x.resolved r.followers).send env).2.node.store = x.node.store := by
    rw [Handling.send_resolved, henv, hpacket]
    exact Handling.node_settleExchange ..
  rw [Handling.process_of_parse_ok hm hparse]
  rcases hs : (x.resolved r.followers).send env with ⟨_ | fault, y⟩ <;> rw [hs] at hnode
  · rw [Handling.processResolved_of_sent hforward' hs]
    have hsame : y.request.packet = r.packet := (Handling.packet_send hs).trans hpacket
    have hstreams : y.request.packet.header.opcode.streamsReply = false := by
      rw [hsame]
      exact r.relayable.not_streamed
    obtain ⟨z, ho, -, hstore, hforwarder, -⟩ := Handling.exists_operate_eq env hstreams
    have hy : Advanced r x z := by
      rw [Advanced, hforwarder, hstore, hnode.1, hnode.2, hsame, hengine]
      exact ⟨hrelayed, .inr (congrArg Prod.snd (Retry.applied_eq hknows))⟩
    rw [ho]
    exact hy.conclude henv _
  · rw [Handling.processResolved_of_send_fault hforward' hs]
    have hy : Advanced r x y := by
      rw [Advanced, hnode.1, hnode.2]
      exact ⟨hrelayed, hknows⟩
    exact hy.finish henv false

end Handling

/-! ## Runs -/

theorem Retry.isForward (r : Retry ω) : (Request.ofPacket r.packet).isForward = true := by
  have hremaining : 0 < (Request.ofPacket r.packet).packet.header.remaining := r.remaining_pos
  have hstreams : (Request.ofPacket r.packet).packet.header.opcode.streamsReply = false :=
    r.relayable.not_streamed
  rw [Request.isForward, hstreams]
  simpa using hremaining

/-- The states of a node that is sent the same packet again and again, in the order of what happens.  At first
the node and each of its followers have applied the packet any number of times to a storage that all of them
had, and there is nothing on the way to a follower but copies of the packet, at most one on each line and
maybe cut off.  Attempts end as they may, and no follower serves anybody else in the meantime. -/
inductive Retried (engine : Extent.Engine ω) (p : Packet) (followers : List String) (before : ω) :
    Node ω (World ω τ) → Prop
  | begun {n : Node ω (World ω τ)} (hn : Reachable n)
      (hloyal : ∀ i, (n.forwarder.network.fates i).Loyal engine followers)
      (hstore : ∃ times, n.store = appliedTimes engine p times before)
      (hmembers : ∀ address ∈ followers, ∃ times,
        (n.forwarder.network.members address).store = appliedTimes engine p times before)
      (hlines : ∀ number line, n.forwarder.network.lines number = some line →
        line.link.address ∈ followers → ∃ t, line.outbound ++ t = relayFrame p) :
      Retried engine p followers before n
  | attempted {env : Environment ω (World ω τ)} (henv : env.network = network)
      (hengine : env.engine = engine) {n : Node ω (World ω τ)}
      (h : Retried engine p followers before n) (buffers : BufferPool) (client : Sink) :
      Retried engine p followers before (Node.handle env p (n.setBuffers buffers) client).2.1
  | happened {n : Node ω (World ω τ)} (h : Retried engine p followers before n)
      {happening : Happening ω τ} (hh : happening.Loyal engine followers) :
      Retried engine p followers before { n with
        forwarder := { n.forwarder with network := n.forwarder.network.happen happening } }

section Runs

variable {env : Environment ω (World ω τ)} {n : Node ω (World ω τ)}

theorem Halfway.advanced (henv : env.network = network) (hengine : env.engine = r.engine)
    (h : Halfway r n) (buffers : BufferPool) (client : Sink) :
    let handled := Node.handle env r.packet (n.setBuffers buffers) client
    n.forwarder.network.Continues r handled.2.1.forwarder.network ∧ r.Knows handled.2.1.store := by
  obtain ⟨hstore, hforwarder⟩ := Node.handle_node env r.packet (n.setBuffers buffers) client
  let x := Node.opening env r.packet (n.setBuffers buffers) client
  have hadvanced : Advanced r x (x.process env).2 :=
    advanced_process henv hengine rfl r.isForward h.atRest h.knows h.partway
  simp only [hstore, hforwarder]
  exact hadvanced

theorem Halfway.attempt (henv : env.network = network) (hengine : env.engine = r.engine)
    (h : Halfway r n) (buffers : BufferPool) (client : Sink) :
    Halfway r (Node.handle env r.packet (n.setBuffers buffers) client).2.1 := by
  obtain ⟨hcontinues, hknows⟩ := h.advanced henv hengine buffers client
  have hrest : AtRest (n.setBuffers buffers).forwarder := h.atRest
  exact ⟨atRest_handle henv r.relayable.decodable hrest client, hknows, hcontinues.partway⟩

/-- After every attempt, and after all that followers do in between, the node and its followers have one of
two storages. -/
theorem Retried.halfway (h : Retried r.engine r.packet r.followers r.before n) : Halfway r n := by
  induction h with
  | @begun n hn hloyal hstore hmembers hlines =>
    obtain ⟨times, hstore⟩ := hstore
    refine ⟨hn.atRest, hstore ▸ r.knows_appliedTimes times, hloyal, fun address ha ↦ ?_, hlines⟩
    obtain ⟨times, hmember⟩ := hmembers address ha
    exact hmember ▸ r.knows_appliedTimes times
  | attempted henv hengine h buffers client ih => exact ih.attempt henv hengine buffers client
  | @happened n h happening hh ih =>
    exact ⟨Tidy.evolve ih.atRest (World.evolves_happen n.forwarder.network happening), ih.knows,
      (ih.partway.happen hh).partway⟩

end Runs

end Cluster

end ReplicaChain
