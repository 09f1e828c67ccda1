import ReplicaChain.Proofs.Cluster.World
import ReplicaChain.Proofs.Node.Acknowledgement

/-!
# Slots and addresses

A packet has one slot for the link to each of its followers.  The slots are filled by sending, kept by
receiving and emptied by settling, and each of these pairs them with the addresses.  As long as the
links were not settled there are as many slots as addresses, so that collecting the replies succeeds
only when every follower has acknowledged.  Settling leaves no slots at all, and from then on, until
the followers are found again, there is nobody to ask and collecting succeeds without reading anything.
-/

namespace ReplicaChain.Handling

open Follower

variable {ω σ : Type}

/-! ## Calls in any order -/

/-- A request after any number of calls on it, in any order, each in some environment, on a node in some
state and with some client.  What else belongs to the packet may change in between.  The first argument
tells whether its links were settled after its followers were last found. -/
inductive Called (ω σ : Type) : Bool → Request → Prop
  | start (packet : Wire.Packet) : Called ω σ false (.ofPacket packet)
  | changed {settled : Bool} {r : Request} (packet : Wire.Packet) (needsReply : Bool)
      (timer : Option Latency.Timer) (h : Called ω σ settled r) :
      Called ω σ settled { r with packet, needsReply, timer }
  | resolve {settled : Bool} (x : Handling ω σ) (h : Called ω σ settled x.request) :
      Called ω σ (settled && x.resolve.1.isSome) x.resolve.2.request
  | send {settled : Bool} (env : Environment ω σ) (x : Handling ω σ)
      (h : Called ω σ settled x.request) : Called ω σ settled (x.send env).2.request
  | receive {settled : Bool} (env : Environment ω σ) (x : Handling ω σ)
      (h : Called ω σ settled x.request) : Called ω σ settled (x.receive env).2.request
  | finish {settled : Bool} (env : Environment ω σ) (ok : Bool) (x : Handling ω σ)
      (h : Called ω σ settled x.request) : Called ω σ true (x.finish env ok).request

/-- There is one slot for each address, or none at all. -/
def Slotted (settled : Bool) (r : Request) : Prop :=
  r.slots.length = if settled then 0 else r.followers.length

theorem Slotted.length_le {settled : Bool} {r : Request} (h : Slotted settled r) :
    r.slots.length ≤ r.followers.length := by
  unfold Slotted at h
  split at h <;> omega

/-- Sending fills the slots that there are. -/
theorem length_slots_send (env : Environment ω σ) {x : Handling ω σ}
    (h : x.request.slots.length ≤ x.request.followers.length) :
    (x.send env).2.request.followers = x.request.followers ∧
      (x.send env).2.request.slots.length = x.request.slots.length := by
  let sent := x.node.forwarder.send env.network env.sendSchedule (relayFrame x.request.packet)
    x.request.followers
  have hsent : sent.1.length = x.request.followers.length := by
    simp only [sent, Forwarder.send_eq_relayed, List.length_map, Forwarder.length_relayed]
  by_cases hf : x.request.followers.isEmpty
  · rw [send, if_pos hf]
    exact ⟨rfl, rfl⟩
  · have hrequest : (x.send env).2.request.followers = x.request.followers ∧
        (x.send env).2.request.slots = (sent.1.take x.request.slots.length).map Prod.fst := by
      rw [send, if_neg hf]
      dsimp only
      split <;> exact ⟨rfl, rfl⟩
    refine ⟨hrequest.1, ?_⟩
    rw [hrequest.2, List.length_map, List.length_take]
    omega

/-- Receiving puts every link back into its slot. -/
theorem length_slots_receive (env : Environment ω σ) {x : Handling ω σ}
    (h : x.request.slots.length ≤ x.request.followers.length) :
    (x.receive env).2.request.followers = x.request.followers ∧
      (x.receive env).2.request.slots.length = x.request.slots.length := by
  let received := x.node.forwarder.receive env.network env.receiveSchedule
    x.request.packet.header.requestId x.request.followers x.request.slots
  have hreceived : received.1.length = x.request.slots.length := by
    simp only [received, Forwarder.receive_eq_collected, List.length_map]
    rw [← List.length_map, Forwarder.map_link_collected _ _ _ _ h]
  by_cases hf : x.request.followers.isEmpty
  · rw [receive, if_pos hf]
    exact ⟨rfl, rfl⟩
  · have hrequest : (x.receive env).2.request.followers = x.request.followers ∧
        (x.receive env).2.request.slots = received.1.map Prod.fst := by
      rw [receive, if_neg hf]
      dsimp only
      split <;> exact ⟨rfl, rfl⟩
    refine ⟨hrequest.1, ?_⟩
    rw [hrequest.2, List.length_map, hreceived]

theorem Called.slotted {settled : Bool} {r : Request} (h : Called ω σ settled r) :
    Slotted settled r := by
  induction h with
  | start packet => rfl
  | changed packet needsReply timer h ih => exact ih
  | @resolve settled x h ih =>
    unfold Handling.resolve
    split
    · simp [Slotted, Request.withFollowers]
    · rw [Option.isSome_some, Bool.and_true]
      exact ih
  | send env x h ih =>
    obtain ⟨hfollowers, hlength⟩ := length_slots_send env ih.length_le
    rw [Slotted, hfollowers, hlength]
    exact ih
  | receive env x h ih =>
    obtain ⟨hfollowers, hlength⟩ := length_slots_receive env ih.length_le
    rw [Slotted, hfollowers, hlength]
    exact ih
  | finish env ok x h ih => rfl

/-! ## What collecting the replies tells -/

def replyFaults (env : Environment ω σ) (x : Handling ω σ) : List (Option Fault) :=
  (x.node.forwarder.receive env.network env.receiveSchedule x.request.packet.header.requestId
    x.request.followers x.request.slots).1.map Prod.snd

/-- The links from which an acknowledgement is read while the replies are collected. -/
def acknowledging (env : Environment ω σ) (x : Handling ω σ) : List Link :=
  ((x.map (·, [])).receive env.recorded).2.record.filterMap
    (Event.acknowledgedOn x.request.packet.header.requestId)

/-- The fault reported is that of the first reply that failed. -/
theorem receive_fault (env : Environment ω σ) {x : Handling ω σ}
    (hne : x.request.followers ≠ []) :
    (x.receive env).1 = (x.replyFaults env).findSome? id := by
  have hf : ¬ x.request.followers.isEmpty = true := by simpa using hne
  rw [receive, if_neg hf, replyFaults, List.findSome?_map]
  dsimp only
  change _ = firstFault _
  split
  · rename_i hfault
    exact hfault.symm
  · rename_i fault hfault
    exact hfault.symm

/-- A follower whose slot is empty is reported as not linked. -/
theorem replyFaults_unlinked (env : Environment ω σ) {x : Handling ω σ}
    (hslots : x.request.slots.length = x.request.followers.length) {i : Nat} {address : String}
    (ha : x.request.followers[i]? = some address) (hs : x.request.slots[i]? = some none) :
    (x.replyFaults env)[i]? = some (some (.unlinked address)) := by
  let run := x.node.forwarder.collected env.network env.receiveSchedule
    x.request.packet.header.requestId x.request.followers x.request.slots
  have haddress : run.1.map Prod.fst = x.request.followers :=
    Forwarder.map_fst_collected _ _ _ _ (Nat.le_of_eq hslots.symm)
  have hlink : run.1.map (fun r ↦ r.2.link) = x.request.slots :=
    Forwarder.map_link_collected _ _ _ _ (Nat.le_of_eq hslots)
  rw [← haddress, List.getElem?_map, Option.map_eq_some_iff] at ha
  obtain ⟨⟨_, stage⟩, hr, rfl⟩ := ha
  rw [← hlink, List.getElem?_map, hr] at hs
  have hmem := List.mem_of_getElem? hr
  obtain ⟨link, fault, rfl⟩ := Forwarder.settled_of_mem_collected hmem
  obtain rfl : link = none := Option.some.inj hs
  have hfault := Forwarder.fault_of_mem_collected hmem rfl
  rw [replyFaults, Forwarder.receive_eq_collected, List.map_map, List.getElem?_map, hr, hfault]
  rfl

/-- Nobody is asked when there are no slots. -/
theorem receive_of_slots_nil (env : Environment ω σ) {x : Handling ω σ}
    (hslots : x.request.slots = []) : x.receive env = (none, x) := by
  by_cases hf : x.request.followers.isEmpty
  · rw [receive, if_pos hf]
  · have hpending : Forwarder.pending x.request.followers [] = [] := by simp [Forwarder.pending]
    have hx : x.exchanged [] x.node.forwarder = x := by
      rw [exchanged, List.map_nil, ← hslots]
      rfl
    rw [receive, if_neg hf, Forwarder.receive_eq_collected, Forwarder.collected, hslots, hpending,
      runAll_nil]
    exact congrArg (Prod.mk none) hx

/-- With a slot for each follower, collecting succeeds just when every slot has a link and an
acknowledgement is read from each of them. -/
theorem receive_eq_none_iff (env : Environment ω σ) {x : Handling ω σ}
    (hslots : x.request.slots.length = x.request.followers.length) :
    (x.receive env).1 = none ↔ ∃ links : List Link,
      x.request.slots = links.map some ∧ (x.acknowledging env).Perm links := by
  let requestId := x.request.packet.header.requestId
  let f := (x.map (·, ([] : List Event))).node.forwarder
  let run := f.collected env.network.recorded env.receiveSchedule requestId x.request.followers
    x.request.slots
  have hreceive : (x.map (·, [])).receive env.recorded = (x.map (·, [])).settleExchange
      receiveAction (run.1.map (Receiving.result ·.2)) run.2 :=
    receive_of_slots env.recorded (x.map (·, [])) hslots
  have hfault : (x.receive env).1 = firstFault (run.1.map (Receiving.result ·.2)) := by
    have hproject := receive_map env.network.recorded_projects (x.map (·, []))
    have : (x.receive env).1 = ((x.map (·, [])).receive env.recorded).1 := congrArg Prod.fst hproject
    rw [this, hreceive, settleExchange]
    split <;> simp_all
  have hread : x.acknowledging env =
      run.2.network.2.filterMap (Event.acknowledgedOn requestId) := by
    rw [acknowledging, hreceive, settleExchange]
    split <;> rfl
  rw [hfault, hread]
  constructor
  · intro hnone
    have hlinked := Forwarder.isSome_of_collected (Nat.le_of_eq hslots) hnone
    obtain ⟨links, hlinks⟩ := exists_map_some hlinked
    refine ⟨links, hlinks, ?_⟩
    simp only [run, hlinks] at hnone ⊢
    refine Forwarder.collected_of_firstFault_none rfl ?_ hnone
    rw [← hslots, hlinks, List.length_map]
  · rintro ⟨links, hlinks, hperm⟩
    by_contra hfailed
    apply Forwarder.length_acknowledged_ne (f := f) rfl hslots hfailed
    rw [hperm.length_eq, ← hslots, hlinks, List.length_map]

/-! ## All calls -/

/-- After any calls there is one slot for each address, or none when the links were settled and the
followers not found again.  Collecting the replies of such a packet reports the first follower that
failed, and a follower without a link fails as not linked.  It succeeds just when an acknowledgement is
read from the link of every follower, or when there are no slots, and then nothing is read at all. -/
theorem slots_of_called {settled : Bool} {r : Request} (h : Called ω σ settled r) :
    r.slots.length = (if settled then 0 else r.followers.length) ∧
      ∀ (env : Environment ω σ) (x : Handling ω σ), x.request = r → r.followers ≠ [] →
        (x.receive env).1 = (x.replyFaults env).findSome? id ∧
        (∀ (i : Nat) (address : String), r.followers[i]? = some address →
          r.slots[i]? = some none → (x.replyFaults env)[i]? = some (some (.unlinked address))) ∧
        (settled = false → ((x.receive env).1 = none ↔ ∃ links : List Link,
          r.slots = links.map some ∧ (x.acknowledging env).Perm links)) ∧
        (settled = true → (x.receive env).1 = none ∧ x.acknowledging env = []) := by
  have hslotted : Slotted settled r := h.slotted
  refine ⟨hslotted, ?_⟩
  rintro env x rfl hne
  refine ⟨receive_fault env hne, ?_⟩
  cases settled with
  | false =>
    exact ⟨fun i address ha hs ↦ replyFaults_unlinked env hslotted ha hs,
      fun _ ↦ receive_eq_none_iff env hslotted, nofun⟩
  | true =>
    have hslots : x.request.slots = [] := List.length_eq_zero_iff.mp hslotted
    refine ⟨fun i address ha hs ↦ ?_, nofun, fun _ ↦ ⟨?_, ?_⟩⟩
    · rw [hslots] at hs
      exact absurd hs (by simp)
    · rw [receive_of_slots_nil env hslots]
    · have hrecorded : (x.map (·, [])).receive env.recorded = (none, x.map (·, [])) :=
        receive_of_slots_nil _ hslots
      rw [acknowledging, hrecorded]
      rfl

/-- A request to create an extent is sent to its follower, and the acknowledgement is read from the link
on which it was sent. -/
theorem slots_of_called_createExtent :
    let p := (Wire.Packet.createExtent 0 1 1 1).withFollowers (Follower.encode ["b:2"]).toUTF8 1
    let follower : Node Extent.Store Unit := .idle (.empty 10) ⟨1, 1, 1⟩ (.filled 0 0) .disabled ()
    let w := Cluster.World.ofMembers (fun _ ↦ follower) (.kind (Node.environment {} .unreachable 0))
    let env := Node.environment {} Cluster.network 0
    let arrived : Handling Extent.Store (Cluster.World Extent.Store Unit) :=
      ⟨.ofPacket p, Node.ofSettings {} w, .unbounded⟩
    let x := (arrived.resolve.2.send env).2
    Called Extent.Store (Cluster.World Extent.Store Unit) false x.request ∧ ∃ links : List Link,
      x.request.slots = links.map some ∧ links.length = 1 ∧ (x.acknowledging env).Perm links := by
  intro p follower w env arrived x
  have hstart : Called Extent.Store (Cluster.World Extent.Store Unit) false arrived.request :=
    .start p
  have hcalled : Called Extent.Store (Cluster.World Extent.Store Unit) false x.request :=
    .send env arrived.resolve.2 (.resolve arrived hstart)
  have hne : x.request.followers ≠ [] := by decide +kernel
  have hnone : (x.receive env).1 = none := by decide +kernel
  obtain ⟨hlength, hreceive⟩ := slots_of_called hcalled
  obtain ⟨links, hlinks, hperm⟩ := ((hreceive env x rfl hne).2.2.1 rfl).mp hnone
  refine ⟨hcalled, links, hlinks, ?_, hperm⟩
  have hone : x.request.followers.length = 1 := by decide +kernel
  calc
    links.length = x.request.slots.length := by rw [hlinks, List.length_map]
    _ = x.request.followers.length := hlength.trans (if_neg Bool.false_ne_true)
    _ = 1 := hone

/-- When its links have been settled, a packet with a follower has no slot, and collecting the replies
succeeds although nothing is read. -/
theorem receive_after_finish :
    let p := (Wire.Packet.createExtent 0 1 1 1).withFollowers
      (Follower.encode ["127.0.0.1:17311"]).toUTF8 1
    let env := Node.environment {} .unreachable 0
    let arrived : Handling Extent.Store Unit := ⟨.ofPacket p, Node.ofSettings {} (), .unbounded⟩
    let x := arrived.resolve.2.finish env false
    Called Extent.Store Unit true x.request ∧ x.request.followers = ["127.0.0.1:17311"] ∧
      (arrived.resolve.2.receive env).1 = some (.unlinked "127.0.0.1:17311") ∧
      x.request.slots.length ≠ x.request.followers.length ∧
      (x.receive env).1 = none ∧ x.acknowledging env = [] := by
  intro p env arrived x
  have hstart : Called Extent.Store Unit false arrived.request := .start p
  have hcalled : Called Extent.Store Unit true x.request :=
    .finish env false arrived.resolve.2 (.resolve arrived hstart)
  exact ⟨hcalled, by decide +kernel, by decide +kernel, by decide +kernel, by decide +kernel,
    by decide +kernel⟩

end ReplicaChain.Handling
