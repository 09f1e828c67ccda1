import ReplicaChain.Proofs.Cluster.Standing
import ReplicaChain.Proofs.Node.Responses

/-!
# The chain refines a single storage

A node that relays packets to followers, each of which is named once, keeps all storages equal, and
does with the packets what a lone node does that is sent them without followers.  The two nodes are
compared packet by packet, each in its own circumstances.
-/

namespace ReplicaChain.Cluster

open Handling (Relayable applied responses)
open Wire (Packet)

/-! ## Storages in memory -/

/-- A packet that is refused changes nothing. -/
theorem applied_of_result_ne_ok {p : Packet} {s : Extent.Store}
    (h : (applied Extent.Store.engine p s).1.header.result ≠ .ok) :
    (applied Extent.Store.engine p s).2 = s := by
  rcases hop : Handling.operationOf p with fault | op
  · simp only [applied, Handling.performed, hop]
  rcases hperform : s.perform op with fault | ⟨a, s'⟩ <;>
    simp only [applied, Handling.performed, hop, Extent.Store.engine, hperform, Except.mapError] at h ⊢
  exact absurd rfl h

/-- A packet that is answered as a stream only reads. -/
theorem applied_of_streamsReply {p : Packet} (h : p.header.opcode.streamsReply = true)
    (s : Extent.Store) : (applied Extent.Store.engine p s).2 = s := by
  have hopcode : p.header.opcode = .streamRead := by simpa [Wire.Opcode.streamsReply] using h
  unfold applied Handling.performed Handling.operationOf
  simp only [hopcode, Extent.Store.engine, Extent.Store.perform]
  rcases s.read p.header.partition p.header.extent p.header.offset p.header.size with fault | b <;> rfl

/-! ## Two nodes side by side -/

/-- One packet of a client, and the circumstances in which it is answered by a node with followers and
by a node without. -/
structure Round (τ σ : Type) where
  packet : Packet
  env : Environment Extent.Store (World Extent.Store τ)
  loneEnv : Environment Extent.Store σ
  /-- What followers do after the packet was answered. -/
  meanwhile : List (Happening Extent.Store τ)

structure Pair (τ σ : Type) where
  primary : Node Extent.Store (World Extent.Store τ)
  lone : Node Extent.Store σ

namespace Pair

variable {τ σ : Type}

/-- What the node with followers does with the packet that it is sent. -/
@[irreducible]
def primaryAnswer (x : Pair τ σ) (r : Round τ σ) :
    Node Extent.Store (World Extent.Store τ) × ByteArray :=
  x.primary.answerFrame r.env r.packet.frame

/-- What the node without followers does with the packet, which it is sent with no followers. -/
@[irreducible]
def loneAnswer (x : Pair τ σ) (r : Round τ σ) : Node Extent.Store σ × ByteArray :=
  x.lone.answerFrame r.loneEnv r.packet.alone.frame

theorem answerFrame_primary (x : Pair τ σ) (r : Round τ σ) :
    x.primary.answerFrame r.env r.packet.frame = x.primaryAnswer r := by
  delta primaryAnswer
  rfl

theorem answerFrame_lone (x : Pair τ σ) (r : Round τ σ) :
    x.lone.answerFrame r.loneEnv r.packet.alone.frame = x.loneAnswer r := by
  delta loneAnswer
  rfl

def answered (x : Pair τ σ) (r : Round τ σ) : Pair τ σ :=
  ⟨(x.primaryAnswer r).1, (x.loneAnswer r).1⟩

theorem primary_answered (x : Pair τ σ) (r : Round τ σ) :
    (x.answered r).primary = (x.primaryAnswer r).1 := rfl

theorem lone_answered (x : Pair τ σ) (r : Round τ σ) :
    (x.answered r).lone = (x.loneAnswer r).1 := rfl

def next (x : Pair τ σ) (r : Round τ σ) : Pair τ σ :=
  let y := x.answered r
  { y with
    primary := { y.primary with
      forwarder := { y.primary.forwarder with
        network := r.meanwhile.foldl World.happen y.primary.forwarder.network } } }

def run (x : Pair τ σ) (rounds : List (Round τ σ)) : Pair τ σ :=
  rounds.foldl next x

end Pair

section Rounds

variable {τ σ : Type} {addresses : List String} {x : Pair τ σ} {r : Round τ σ}

/-- The packet is no command, has followers left and names each of the followers once, all of which
have read what was sent to them before; no reply to it is too long to be read. -/
structure FairRound (addresses : List String) (x : Pair τ σ) (r : Round τ σ) : Prop where
  decodable : r.packet.Decodable
  not_master : r.packet.header.opcode.isMaster = false
  remaining_pos : 0 < r.packet.header.remaining
  names : ∃ followers, Request.parseFollowers r.packet = .ok followers ∧ followers.Perm addresses
  quiet : x.primary.forwarder.network.Quiet
  size_le : ∀ q ∈ responses Extent.Store.engine r.env.now r.packet x.lone.store,
    q.data.size ≤ Wire.maxPayloadSize
  network_eq : r.env.network = network
  engine_eq : r.env.engine = Extent.Store.engine
  loneEngine_eq : r.loneEnv.engine = Extent.Store.engine
  meanwhile : ∀ h ∈ r.meanwhile, h.Fair Extent.Store.engine

def FairRun (addresses : List String) : Pair τ σ → List (Round τ σ) → Prop
  | _, [] => True
  | x, r :: rounds => FairRound addresses x r ∧ FairRun addresses (x.next r) rounds

/-- Two nodes and the followers of one of them have the same storage. -/
structure InStep (addresses : List String) (x : Pair τ σ) : Prop where
  store_eq : x.primary.store = x.lone.store
  standing : Standing Extent.Store.engine addresses x.lone.store x.primary.forwarder

theorem InStep.members (h : InStep addresses x) {address : String} (ha : address ∈ addresses) :
    (x.primary.forwarder.network.members address).store = x.lone.store :=
  (h.standing.level address ha).store_eq

/-- A packet that is answered as a stream is answered by the node alone. -/
theorem InStep.primaryAnswer_of_streamed (h : InStep addresses x) (hr : FairRound addresses x r)
    (hs : r.packet.header.opcode.streamsReply = true) :
    let answer := applied Extent.Store.engine r.packet x.lone.store
    (x.primaryAnswer r).1.store = answer.2 ∧
      Standing Extent.Store.engine addresses answer.2 (x.primaryAnswer r).1.forwarder ∧
      (x.primaryAnswer r).2 = Source.join
        ((responses Extent.Store.engine r.env.now r.packet x.lone.store).map Packet.frame) := by
  obtain ⟨followers, hparse, -⟩ := hr.names
  have hlocal : (Request.ofPacket r.packet).isForward = false := by
    simp [Request.isForward, Request.ofPacket, hs]
  have hanswer := Node.answerFrame_of_local r.env x.primary hr.decodable hr.not_master hparse hlocal
  rw [x.answerFrame_primary r, hr.engine_eq, h.store_eq] at hanswer
  obtain ⟨hstore, hlinks, hnetwork, hwritten⟩ := hanswer
  refine ⟨hstore, ?_, hwritten⟩
  rw [applied_of_streamsReply hs]
  exact h.standing.of_eq hlinks hnetwork

/-- A packet that is relayed is answered by the reply that the storage gives. -/
theorem InStep.primaryAnswer_of_relayed (haddresses : addresses.Nodup) (h : InStep addresses x)
    (hr : FairRound addresses x r) (hs : r.packet.header.opcode.streamsReply = false) :
    let answer := applied Extent.Store.engine r.packet x.lone.store
    (x.primaryAnswer r).1.store = answer.2 ∧
      Standing Extent.Store.engine addresses answer.2 (x.primaryAnswer r).1.forwarder ∧
      (x.primaryAnswer r).2 = Source.join
        ((responses Extent.Store.engine r.env.now r.packet x.lone.store).map Packet.frame) := by
  intro answer
  obtain ⟨followers, hparse, hnames⟩ := hr.names
  obtain ⟨buffers, hanswer⟩ := Node.exists_answerFrame_of_reply r.env x.primary hr.decodable
  rw [x.answerFrame_primary r] at hanswer
  let z := Node.opening r.env r.packet (x.primary.setBuffers buffers) .unbounded
  have hp : Relayable z.request.packet := ⟨hr.decodable, hr.not_master, hs⟩
  have hforward : z.request.isForward = true := by
    have hremaining : 0 < z.request.packet.header.remaining := hr.remaining_pos
    rw [Request.isForward, hp.not_streamed]
    simpa using hremaining
  have hstore : z.node.store = x.lone.store := h.store_eq
  have hstanding : Standing r.env.engine addresses z.node.store z.node.forwarder := by
    rw [hr.engine_eq, hstore]
    exact h.standing.of_eq rfl rfl
  have hresponses := Handling.responses_of_not_streamed Extent.Store.engine r.env.now x.lone.store hs
  have hsize : answer.1.data.size ≤ Wire.maxPayloadSize := by
    apply hr.size_le
    rw [hresponses]
    exact List.mem_singleton_self _
  have hprocess := hstanding.process hr.network_eq hp hforward hparse hnames haddresses hr.quiet
  rw [hr.engine_eq, hstore] at hprocess
  obtain ⟨y, hy, hpacket, hneeds, hclient, happlied, hstanding'⟩ :=
    hprocess applied_of_result_ne_ok hsize
  obtain ⟨code, body, hreply⟩ := Handling.exists_applied_eq_reply Extent.Store.engine r.packet
    x.lone.store
  obtain ⟨hstore', hforwarder', hwritten⟩ :=
    hanswer y code body hy (hpacket.trans hreply) (hneeds.trans rfl) hclient
  refine ⟨hstore'.trans happlied, ?_, ?_⟩
  · rw [hforwarder']
    exact hstanding'.of_eq rfl rfl
  · rw [hwritten, ← hreply, hresponses]
    simp

/-- What the node with followers does with a packet is what it would do without. -/
theorem InStep.primaryAnswer (haddresses : addresses.Nodup) (h : InStep addresses x)
    (hr : FairRound addresses x r) :
    let answer := applied Extent.Store.engine r.packet x.lone.store
    (x.primaryAnswer r).1.store = answer.2 ∧
      Standing Extent.Store.engine addresses answer.2 (x.primaryAnswer r).1.forwarder ∧
      (x.primaryAnswer r).2 = Source.join
        ((responses Extent.Store.engine r.env.now r.packet x.lone.store).map Packet.frame) := by
  cases hs : r.packet.header.opcode.streamsReply with
  | true => exact h.primaryAnswer_of_streamed hr hs
  | false => exact h.primaryAnswer_of_relayed haddresses hr hs

theorem InStep.answered (haddresses : addresses.Nodup) (h : InStep addresses x)
    (hr : FairRound addresses x r) :
    InStep addresses (x.answered r) ∧ Handling.Alike (x.primaryAnswer r).2 (x.loneAnswer r).2 := by
  obtain ⟨hstore, hstanding, hwritten⟩ := h.primaryAnswer haddresses hr
  have halone := Node.answerFrame_alone r.loneEnv x.lone hr.decodable hr.not_master
  rw [x.answerFrame_lone r, hr.loneEngine_eq] at halone
  obtain ⟨hstore', hwritten'⟩ := halone
  refine ⟨⟨?_, ?_⟩, ?_⟩
  · rw [Pair.primary_answered, Pair.lone_answered, hstore, hstore']
  · rw [Pair.primary_answered, Pair.lone_answered, hstore']
    exact hstanding
  · rw [hwritten, hwritten']
    exact Handling.alike_responses _ _ _ _ _

/-- What followers do between two packets keeps all nodes in step. -/
theorem InStep.next (haddresses : addresses.Nodup) (h : InStep addresses x)
    (hr : FairRound addresses x r) : InStep addresses (x.next r) := by
  obtain ⟨hstore, hstanding⟩ := (h.answered haddresses hr).1
  have hkeeps := World.keeps_foldl_happen hr.meanwhile hstanding.fair
  exact ⟨hstore, hstanding.atRest.evolve (World.evolves_foldl_happen _ _), hstanding.sparing,
    hkeeps.fair hstanding.fair, fun address ha ↦ (hstanding.level address ha).keep hkeeps⟩

theorem InStep.run (haddresses : addresses.Nodup) {rounds : List (Round τ σ)}
    (h : InStep addresses x) (hfair : FairRun addresses x (rounds ++ [r])) :
    InStep addresses (x.run rounds) ∧ FairRound addresses (x.run rounds) r := by
  induction rounds generalizing x with
  | nil => exact ⟨h, hfair.1⟩
  | cons r' rounds ih => exact ih (h.next haddresses hfair.1) hfair.2

/-- A node and its followers that start with equal storages are in step with a lone node that starts
with the same storage. -/
theorem inStep_idle {store : Extent.Store} {limits : Follower.LinkLimits} (buffers : BufferPool)
    (collector : Latency.Collector) {w : World Extent.Store τ} {lone : Node Extent.Store σ}
    (hroom : addresses.length ≤ limits.maxLinks) (hlines : ∀ number, w.lines number = none)
    (hfates : ∀ i, (w.fates i).Fair Extent.Store.engine)
    (hmembers : ∀ address ∈ addresses, (w.members address).store = store)
    (hlone : lone.store = store) :
    InStep addresses ⟨.idle store limits buffers collector w, lone⟩ where
  store_eq := hlone.symm
  standing := {
    atRest := (Reachable.started store limits buffers collector hlines).atRest
    sparing := ⟨rfl, hroom, .nil, by simp [Node.idle, Follower.LinkPool.empty]⟩
    fair := ⟨hfates, by simp [Node.idle, hlines]⟩
    level := by
      intro address ha
      refine .inl ⟨(hmembers address ha).trans hlone.symm, ?_⟩
      simp [Node.idle, hlines] }

/-- A node that relays packets to any number of followers, each of which every packet names once, does
with the packets what a lone node does without followers: after every reply the node, its followers and
the lone node have the same storage, and the replies are alike.  This holds for packets that succeed
and for packets that fail, whether they are relayed or answered by the node itself. -/
theorem chain_refines_store {store : Extent.Store} {limits : Follower.LinkLimits}
    (buffers : BufferPool) (collector : Latency.Collector) {w : World Extent.Store τ}
    {lone : Node Extent.Store σ} {rounds : List (Round τ σ)}
    (haddresses : addresses.Nodup) (hroom : addresses.length ≤ limits.maxLinks)
    (hlines : ∀ number, w.lines number = none)
    (hfates : ∀ i, (w.fates i).Fair Extent.Store.engine)
    (hmembers : ∀ address ∈ addresses, (w.members address).store = store)
    (hlone : lone.store = store)
    (hfair : FairRun addresses ⟨.idle store limits buffers collector w, lone⟩ (rounds ++ [r])) :
    let x := Pair.run ⟨.idle store limits buffers collector w, lone⟩ rounds
    let y := x.answered r
    y.primary.store = y.lone.store ∧
      (∀ address ∈ addresses,
        (y.primary.forwarder.network.members address).store = y.lone.store) ∧
      Handling.Alike (x.primaryAnswer r).2 (x.loneAnswer r).2 := by
  intro x y
  have hstart := inStep_idle buffers collector hroom hlines hfates hmembers hlone
  obtain ⟨hx, hr⟩ := hstart.run haddresses hfair
  obtain ⟨hy, halike⟩ := hx.answered haddresses hr
  exact ⟨hy.store_eq, fun address ha ↦ hy.members ha, halike⟩

/-- A request to create an extent is answered alike by a node with a follower and a node without, and
all three have the extent afterwards. -/
theorem chain_refines_store_createExtent :
    let r : Round Unit Unit := {
      packet := (Packet.createExtent 0 1 1 1).withFollowers (Follower.encode ["b:2"]).toUTF8 1
      env := Node.environment {} network 0
      loneEnv := Node.environment {} .unreachable 0
      meanwhile := [] }
    let x : Pair Unit Unit := ⟨bareCluster, bareNode ()⟩
    let y := x.answered r
    y.lone.store ≠ bareCluster.store ∧ y.primary.store = y.lone.store ∧
      (y.primary.forwarder.network.members "b:2").store = y.lone.store ∧
      Handling.Alike (x.primaryAnswer r).2 (x.loneAnswer r).2 := by
  intro r x y
  have hread : (Packet.decode bareCluster.forwarder.buffers (.ofBytes r.packet.frame)).1 =
      .ok r.packet := by decide +kernel
  have hround : FairRound ["b:2"] x r := {
    decodable := Packet.decodable_of_decode hread
    not_master := by decide
    remaining_pos := by decide
    names := ⟨["b:2"], by decide +kernel, .refl _⟩
    quiet := by
      intro number line hline
      cases hline
    size_le := by decide +kernel
    network_eq := rfl
    engine_eq := rfl
    loneEngine_eq := rfl
    meanwhile := by simp [r] }
  have hlines : ∀ number, bareCluster.forwarder.network.lines number = none := fun _ ↦ rfl
  have hfates : ∀ i, (bareCluster.forwarder.network.fates i).Fair Extent.Store.engine :=
    fun _ ↦ Fate.fair_kind (Node.environment {} .unreachable 0)
  have hmembers : ∀ address ∈ ["b:2"],
      (bareCluster.forwarder.network.members address).store = .empty 10 := fun _ _ ↦ rfl
  have hlone : x.lone.store = .empty 10 := rfl
  have hrun : FairRun ["b:2"] x ([] ++ [r]) := ⟨hround, trivial⟩
  obtain ⟨hstore, hequal, halike⟩ := chain_refines_store (.filled 0 0) .disabled
    (List.nodup_singleton "b:2") (by decide) hlines hfates hmembers hlone hrun
  have hcreated : (x.loneAnswer r).1.store ≠ bareCluster.store := by
    rw [← Pair.answerFrame_lone]
    decide +kernel
  exact ⟨hcreated, hstore, hequal "b:2" (by simp), halike⟩

end Rounds

end ReplicaChain.Cluster
