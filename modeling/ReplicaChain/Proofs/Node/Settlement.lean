import Mathlib.Algebra.BigOperators.Group.Finset.Basic
import ReplicaChain.Proofs.Cluster.CleanLinks
import ReplicaChain.Proofs.Follower.Loans

/-!
# Settling the links of a packet

Every link that is obtained for a packet lies in the slot of its follower from the relay on, whatever
else fails, and applying the packet and collecting the replies leave it there.  Each path of a packet on
which links are obtained ends with settling all slots: the links are handed back when the reply to the
client is success, and destroyed otherwise.  So between the packets of a node that handles one after
another no link is on loan, and the pool counts its idle links and nothing else.
-/

namespace ReplicaChain

open Follower

variable {ω σ : Type}

def Request.linked (r : Request) : List (String × Link) :=
  (r.followers.zip r.slots).filterMap fun s ↦ s.2.map (s.1, ·)

namespace Handling

/-! ## Links in slots -/

/-- What was lent to the packet by a pool that was in state `p` is in its slots. -/
structure Owes (p : LinkPool) (x : Handling ω σ) : Prop where
  lends : p.Lends x.request.linked [] x.node.forwarder.links
  length_eq : x.request.slots.length = x.request.followers.length

theorem Owes.of_eq {p : LinkPool} {x y : Handling ω σ} (h : x.Owes p)
    (hfollowers : y.request.followers = x.request.followers)
    (hslots : y.request.slots = x.request.slots)
    (hlinks : y.node.forwarder.links = x.node.forwarder.links) : y.Owes p where
  lends := by
    rw [Request.linked, hfollowers, hslots, hlinks]
    exact h.lends
  length_eq := by
    rw [hfollowers, hslots]
    exact h.length_eq

/-- The links of relays that came to their end are the loans of the relays. -/
theorem linked_relays {relays : List (String × SendStage)}
    (hsettled : ∀ r ∈ relays, ∃ link fault, r.2 = .settled link fault) :
    ((relays.map Prod.fst).zip (relays.map fun r ↦ (Sending.result r.2).1)).filterMap
      (fun s ↦ s.2.map (s.1, ·)) = relays.filterMap loanOf := by
  rw [List.zip_map', List.filterMap_map]
  apply List.filterMap_congr
  rintro ⟨address, stage⟩ hr
  obtain ⟨link, fault, rfl⟩ := hsettled _ hr
  rfl

/-- Sending leaves all links that it obtained in the slots, also when it failed. -/
theorem owes_send (env : Environment ω σ) (addresses : List String) (x : Handling ω σ) :
    ((x.resolved addresses).send env).2.Owes x.node.forwarder.links := by
  let run := x.node.forwarder.relayed env.network env.sendSchedule (relayFrame x.request.packet)
    addresses
  let z := (x.resolved addresses).exchanged (run.1.map (Sending.result ·.2)) run.2
  have hlends : x.node.forwarder.links.Lends (run.1.filterMap loanOf) [] run.2.links :=
    lends_relayed _ _ _ _ _
  have hz : z.Owes x.node.forwarder.links := by
    have hlinked := linked_relays fun r (hr : r ∈ run.1) ↦ Forwarder.settled_of_mem_relayed hr
    rw [Forwarder.map_fst_relayed] at hlinked
    have hslots : z.request.slots = run.1.map fun r ↦ (Sending.result r.2).1 := List.map_map
    refine ⟨?_, ?_⟩
    · rw [Request.linked, hslots]
      exact hlinked ▸ hlends
    · rw [hslots, List.length_map]
      exact Forwarder.length_relayed _ _ _ _ _
  rw [send_resolved, settleExchange]
  split
  · exact hz
  · exact hz.of_eq rfl rfl rfl

theorem Owes.operate {p : LinkPool} {x : Handling ω σ} (h : x.Owes p) (env : Environment ω σ) :
    (x.operate env).2.Owes p := by
  obtain ⟨hfollowers, hslots, -⟩ := request_operate env x
  exact h.of_eq hfollowers hslots (by rw [forwarder_operate])

/-- Reading a reply does not concern the pool. -/
theorem links_collected (net : Network σ) (schedule : List Nat) (requestId : Int64)
    (followers : List String) (slots : List (Option Link)) (f : Forwarder σ) :
    (f.collected net schedule requestId followers slots).2.links = f.links := by
  refine runAll_induction (P := fun _ f' ↦ f'.links = f.links)
    (fun l f' i address stage hi h ↦ ?_) _ rfl
  rcases stage with (_ | link) | ⟨link, fault⟩
  · exact h
  · rw [← h]
    simp only [Receiving.advance, Forwarder.receiveOne]
    split <;> rfl
  · exact h

theorem Owes.receive {p : LinkPool} {x : Handling ω σ} (h : x.Owes p) (env : Environment ω σ) :
    (x.receive env).2.Owes p := by
  let run := x.node.forwarder.collected env.network env.receiveSchedule
    x.request.packet.header.requestId x.request.followers x.request.slots
  let z := x.exchanged (run.1.map (Receiving.result ·.2)) run.2
  have hslots : z.request.slots = x.request.slots := by
    calc
      z.request.slots = run.1.map fun r ↦ (Receiving.result r.2).1 := List.map_map
      _ = run.1.map fun r ↦ r.2.link := by
        apply List.map_congr_left
        rintro ⟨address, stage⟩ -
        cases stage <;> rfl
      _ = x.request.slots := Forwarder.map_link_collected _ _ _ _ (Nat.le_of_eq h.length_eq)
  have hz : z.Owes p := h.of_eq rfl hslots (links_collected _ _ _ _ _ _)
  rw [receive_of_slots env x h.length_eq, settleExchange]
  split
  · exact hz
  · exact hz.of_eq rfl rfl rfl

/-! ## Settling the slots -/

/-- Settling slots is settling the loans that are in them. -/
theorem forwarder_run_settling (net : Network σ) (ok : Bool) (slots : List (String × Option Link))
    (l : Lending σ) :
    (l.run net (Lending.settling ok (slots.filterMap fun s ↦ s.2.map (s.1, ·)))).forwarder =
      slots.foldl (settle net ok) l.forwarder := by
  induction slots generalizing l with
  | nil => rfl
  | cons s slots ih =>
    obtain ⟨address, _ | link⟩ := s
    · exact ih l
    · cases ok with
      | true => exact ih (l.after net (.release address link true))
      | false => exact ih (l.after net (.destroy link))

/-- The links of a packet were lent by a pool that was in state `p`, and each of them was then settled,
which left the forwarder as it is in `y`. -/
def Settled (net : Network σ) (p : LinkPool) (y : Handling ω σ) : Prop :=
  ∃ (f : Forwarder σ) (loans : List (String × Link)), p.Lends loans [] f.links ∧
    ∀ lent : List Link,
      let l : Lending σ := ⟨f, loans.map Prod.snd ++ lent⟩
      let calls := Lending.settling y.request.isOk loans
      l.AllDue net calls ∧ l.run net calls = ⟨y.node.forwarder, lent⟩

/-- A packet that has borrowed nothing has nothing to settle. -/
theorem settled_of_forwarder_eq {net : Network σ} {f : Forwarder σ} {y : Handling ω σ}
    (h : y.node.forwarder = f) : y.Settled net f.links :=
  ⟨f, [], .start, fun lent ↦ ⟨trivial, by rw [h]; rfl⟩⟩

theorem Owes.finish {p : LinkPool} {x : Handling ω σ} (h : x.Owes p) (env : Environment ω σ) {ok : Bool}
    (hok : x.request.isOk = ok) : (x.finish env ok).Settled env.network p := by
  refine ⟨x.node.forwarder, x.request.linked, h.lends, fun lent ↦ ?_⟩
  obtain ⟨hdue, hlent⟩ := Lending.settling_due env.network ok x.request.linked lent x.node.forwarder
  have hforwarder := forwarder_run_settling env.network ok
    (x.request.followers.zip x.request.slots) ⟨x.node.forwarder, x.request.linked.map Prod.snd ++ lent⟩
  have hisOk : (x.finish env ok).request.isOk = ok := hok
  dsimp only
  rw [hisOk]
  refine ⟨hdue, ?_⟩
  exact congrArg₂ Lending.mk hforwarder hlent

/-! ## The paths of a packet -/

theorem isOk_send_of_fault {env : Environment ω σ} {addresses : List String} {x y : Handling ω σ}
    {fault : Fault} (hs : (x.resolved addresses).send env = (some fault, y)) :
    y.request.isOk = false := by
  rw [send_resolved, settleExchange] at hs
  split at hs
  · cases hs
  · obtain rfl : _ = y := congrArg Prod.snd hs
    exact decide_eq_false (result_failForward_ne_ok _ _ _)

theorem isOk_receive {env : Environment ω σ} {x : Handling ω σ}
    (hslots : x.request.slots.length = x.request.followers.length) (hok : x.request.isOk = true) :
    (x.receive env).2.request.isOk = (x.receive env).1.isNone := by
  rw [receive_of_slots env x hslots, settleExchange]
  split
  · exact hok
  · exact decide_eq_false (result_failForward_ne_ok _ _ _)

theorem Owes.conclude {p : LinkPool} {x : Handling ω σ} (h : x.Owes p) (env : Environment ω σ) :
    (x.conclude env none).Settled env.network p := by
  rw [Handling.conclude]
  split
  · rename_i hok
    exact (h.receive env).finish env (isOk_receive h.length_eq hok)
  · rename_i hok
    exact h.finish env (Bool.not_eq_true _ ▸ hok)

/-- Whatever becomes of a packet, each link obtained for it is settled. -/
theorem settled_process (env : Environment ω σ) (x : Handling ω σ) :
    (x.process env).2.Settled env.network x.node.forwarder.links := by
  by_cases hm : x.request.isMasterCommand = true
  · rw [process_of_isMasterCommand hm]
    exact settled_of_forwarder_eq (forwarder_operate env x)
  simp only [Bool.not_eq_true] at hm
  rcases hp : Request.parseFollowers x.request.packet with fault | addresses
  · rw [process_of_parse_error hm hp]
    exact settled_of_forwarder_eq rfl
  rw [process_of_parse_ok hm hp]
  rcases hf : (x.resolved addresses).request.isForward with _ | _
  · rw [processResolved_of_local hf]
    exact settled_of_forwarder_eq (forwarder_operate env (x.resolved addresses))
  have howes := owes_send env addresses x
  rcases hs : (x.resolved addresses).send env with ⟨_ | fault, y⟩
  · rw [hs] at howes
    have hstreams : y.request.packet.header.opcode.streamsReply = false := by
      rw [packet_send hs]
      exact streamsReply_of_isForward hf
    obtain ⟨z, ho, -⟩ := exists_operate_eq env hstreams
    have hz := howes.operate env
    rw [ho] at hz
    rw [processResolved_of_sent hf hs, ho]
    exact hz.conclude env
  · rw [hs] at howes
    rw [processResolved_of_send_fault hf hs]
    exact howes.finish env (isOk_send_of_fault hs)

end Handling

/-! ## Between packets -/

/-- The idle links under all addresses are all idle links. -/
theorem Follower.LinkPool.sum_idleCount {p : LinkPool} {addresses : Finset String}
    (h : ∀ l ∈ p.idle, l.1 ∈ addresses) :
    ∑ address ∈ addresses, p.idleCount address = p.idle.length := by
  let under : Multiset String := p.idle.map Prod.fst
  have hcount (address : String) : p.idleCount address = under.count address := by
    simp only [under, Multiset.coe_count, idleCount, List.count_eq_countP, List.countP_map]
    rfl
  have hunder : ∀ address ∈ under, address ∈ addresses := by
    intro address ha
    obtain ⟨l, hl, rfl⟩ := List.mem_map.mp (Multiset.mem_coe.mp ha)
    exact h l hl
  calc
    ∑ address ∈ addresses, p.idleCount address = ∑ address ∈ addresses, under.count address :=
      Finset.sum_congr rfl fun address _ ↦ hcount address
    _ = under.card := Multiset.sum_count_eq_card hunder
    _ = p.idle.length := by rw [Multiset.coe_card, List.length_map]

namespace Node

/-- A node that handles its packets one after another, whoever sends them, whether or not the replies can
be written, and in whatever environment each is handled.  Its pool may be drained in between. -/
inductive Sequential : Node ω σ → Prop
  | idle (store : ω) (limits : LinkLimits) (buffers : BufferPool) (collector : Latency.Collector)
      (network : σ) : Sequential (.idle store limits buffers collector network)
  | handled {n : Node ω σ} (h : Sequential n) (env : Environment ω σ) (p : Wire.Packet)
      (client : Sink) : Sequential (handle env p n client).2.1
  | drained {n : Node ω σ} (h : Sequential n) (net : Network σ) :
      Sequential { n with forwarder := (n.forwarder.drain net).2 }
  | elsewhere {n n' : Node ω σ} (h : Sequential n) (hlinks : n'.forwarder.links = n.forwarder.links) :
      Sequential n'

/-- A connection is served packet by packet. -/
theorem Sequential.served {n : Node ω σ} (h : Sequential n) (env : Environment ω σ) (s : Source)
    (client : Sink) : Sequential (serve env n s client).2.1 := by
  fun_induction serve env n s client with
  | case1 n s client fault buffers s' hd => exact h.elsewhere rfl
  | case2 n s client p buffers s' hd fault n' client' hh =>
    have hbuffers : Sequential (n.setBuffers buffers) := h.elsewhere rfl
    have hn := hbuffers.handled env p client
    rw [hh] at hn
    exact hn
  | case3 n s client p buffers s' hd n' client' hh ih =>
    have hbuffers : Sequential (n.setBuffers buffers) := h.elsewhere rfl
    have hn := hbuffers.handled env p client
    rw [hh] at hn
    exact ih hn

/-- Between packets every link that the pool counts is idle. -/
theorem Sequential.total_eq {n : Node ω σ} (h : Sequential n) :
    n.forwarder.links.total = n.forwarder.links.idle.length := by
  induction h with
  | idle => rfl
  | @handled n h env p client ih =>
    obtain ⟨f, loans, hlends, hcalls⟩ :=
      Handling.settled_process env (opening env p n client)
    obtain ⟨hdue, hrun⟩ := hcalls []
    have hlent : Lending.Counted (⟨f, loans.map Prod.snd ++ []⟩ : Lending σ) := by
      have hstart : (opening env p n client).node.forwarder.links.total =
          (opening env p n client).node.forwarder.links.idle.length + 0 := ih
      have htotal := hlends.total_eq hstart
      simpa [Lending.Counted] using htotal
    have hsettled := hlent.run hdue
    rw [hrun] at hsettled
    rw [(handle_node env p n client).2]
    exact hsettled
  | @drained n h net ih =>
    have hlent : Lending.Counted (⟨n.forwarder, []⟩ : Lending σ) := ih
    exact (hlent.after (c := .drain) trivial : (_ : Lending σ).Counted)
  | elsewhere h hlinks ih => rw [hlinks, ih]

/-- Each link obtained for a packet is settled once: it is handed back under the address it was obtained
for, to be kept, if the reply to the client is success, and destroyed otherwise.  So a node that handles its
packets one after another counts, between packets, the idle links of all addresses and nothing else. -/
theorem links_settled (n : Node ω σ) :
    (∀ (env : Environment ω σ) (p : Wire.Packet) (client : Sink),
      ((opening env p n client).process env).2.Settled env.network n.forwarder.links) ∧
    (n.Sequential → ∀ addresses : Finset String,
      (∀ l ∈ n.forwarder.links.idle, l.1 ∈ addresses) →
      n.forwarder.links.total = ∑ address ∈ addresses, n.forwarder.links.idleCount address) := by
  refine ⟨fun env p client ↦ Handling.settled_process env (opening env p n client), ?_⟩
  intro h addresses haddresses
  rw [h.total_eq, LinkPool.sum_idleCount haddresses]

/-- A request to create an extent on two nodes is relayed, and the reply cannot be written to the client.
Its link is idle afterwards and the only one that the pool counts. -/
theorem links_settled_unwritten :
    let p := (Wire.Packet.createExtent 0 1 1 1).withFollowers (Follower.encode ["b:2"]).toUTF8 1
    let env := Node.environment {} Cluster.network 0
    let client : Sink := ⟨.empty, some 0, ⟨.brokenPipe, "peer closed"⟩⟩
    let handled := handle env p Cluster.bareCluster client
    handled.1.isSome ∧ handled.2.1.forwarder.links.total = 1 ∧
      handled.2.1.forwarder.links.total =
        ∑ address ∈ {"b:2"}, handled.2.1.forwarder.links.idleCount address := by
  intro p env client handled
  have hidle : handled.2.1.forwarder.links.idle = [("b:2", ⟨0, "b:2"⟩)] := by decide +kernel
  have hstart : Cluster.bareCluster.Sequential := .idle _ _ _ _ _
  have hrun : handled.2.1.Sequential := hstart.handled env p client
  refine ⟨by decide +kernel, by decide +kernel, (links_settled _).2 hrun {"b:2"} ?_⟩
  simp [hidle]

end Node

end ReplicaChain
