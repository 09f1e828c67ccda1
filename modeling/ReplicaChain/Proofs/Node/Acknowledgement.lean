import ReplicaChain.Node.Startup
import ReplicaChain.Proofs.Follower.Record
import ReplicaChain.Proofs.Node.Answering

/-!
# When a relayed packet is acknowledged

The client of a relayed packet is told of success just when all of the following happened: for every
follower a link was obtained and the whole frame written on it, the storage accepted the packet, and
from every one of those links a reply was read that acknowledges the request.  What happened is read
off the record of the network.  An exchange writes at most one frame and reads at most one reply, so
that the numbers of frames and of acknowledgements alone tell whether an exchange failed.
-/

namespace ReplicaChain

open Follower
open Wire (Packet)

variable {ω σ : Type}

/-! ## Lists of exchanges -/

namespace Follower

theorem forall₂_map_filterMap {α β γ : Type} {R : γ → β → Prop} {f : α → Option β} {g : α → γ}
    {l : List α} (h : ∀ a ∈ l, ∃ b, f a = some b ∧ R (g a) b) :
    List.Forall₂ R (l.map g) (l.filterMap f) := by
  induction l with
  | nil => exact .nil
  | cons a l ih =>
    obtain ⟨b, hb, hr⟩ := h a (by simp)
    rw [List.map_cons, List.filterMap_cons_some hb]
    exact .cons hr (ih fun a ha ↦ h a (by simp [ha]))

/-- When one of several exchanges has failed, not all of them came to an end on a link. -/
theorem length_filterMap_ne_of_fault {St : Type} {l : List (String × St)}
    {on : String × St → Option Link} {result : St → Option Link × Option Fault}
    (hon : ∀ r link, on r = some link → (result r.2).2 = none)
    (hfault : firstFault (l.map (result ·.2)) ≠ none) : (l.filterMap on).length ≠ l.length := by
  intro hlength
  rw [List.filterMap_length_eq_length] at hlength
  apply hfault
  rw [firstFault_eq_none_iff, List.forall_mem_map]
  intro r hr
  obtain ⟨link, hlink⟩ := Option.isSome_iff_exists.mp (hlength r hr)
  exact hon r link hlink

section Relays

variable {frame : ByteArray} {idle : List (String × Link)} {relays : List (String × SendStage)}
  {f : Forwarder (σ × List Event)}

theorem relayedOn_eq_some {r : String × SendStage} {link : Link} (h : relayedOn r = some link) :
    r.2 = .settled (some link) none := by
  obtain ⟨address, stage⟩ := r
  unfold relayedOn at h
  split at h
  · simp_all
  · simp at h

/-- A relay that ended without a fault ended with a link that was obtained for its follower. -/
theorem Relaying.exists_relayedOn (h : Relaying frame idle relays f)
    {r : String × SendStage} (hr : r ∈ relays) (hsettled : ∃ link fault, r.2 = .settled link fault)
    (hfault : (Sending.result r.2).2 = none) :
    ∃ link, relayedOn r = some link ∧ Obtained idle f.network.2 r.1 link := by
  obtain ⟨address, stage⟩ := r
  obtain ⟨link, fault, rfl⟩ := hsettled
  obtain rfl : fault = none := hfault
  have hrecorded := h.recorded _ hr
  rcases link with _ | link
  · exact absurd rfl hrecorded
  · exact ⟨link, rfl, hrecorded⟩

end Relays

variable {net : Network σ}

/-- Relays that succeeded all of them ended with links that were obtained, on each of which the frame
was written. -/
theorem Forwarder.relayed_of_firstFault_none {schedule : List Nat} {frame : ByteArray}
    {followers : List String} {f : Forwarder (σ × List Event)} (hf : f.network.2 = [])
    (hnone : firstFault ((f.relayed net.recorded schedule frame followers).1.map
      (Sending.result ·.2)) = none) :
    let run := f.relayed net.recorded schedule frame followers
    ∃ links : List Link, run.1.map (fun r ↦ (Sending.result r.2).1) = links.map some ∧
      List.Forall₂ (Obtained f.links.idle run.2.network.2) followers links ∧
      (run.2.network.2.filterMap (Event.writtenOn frame)).Perm links := by
  intro run
  have h : Relaying frame f.links.idle run.1 run.2 := relaying_relayed net schedule frame followers hf
  have hsome : ∀ r ∈ run.1,
      ∃ link, relayedOn r = some link ∧ Obtained f.links.idle run.2.network.2 r.1 link := by
    intro r hr
    have hfault := firstFault_eq_none_iff.mp hnone _ (List.mem_map_of_mem hr)
    exact h.exists_relayedOn hr (settled_of_mem_relayed hr) hfault
  refine ⟨run.1.filterMap relayedOn, ?_, ?_, h.written⟩
  · have hslots : List.Forall₂ (fun slot link ↦ slot = some link)
        (run.1.map fun r ↦ (Sending.result r.2).1) (run.1.filterMap relayedOn) :=
      forall₂_map_filterMap fun r hr ↦ by
        obtain ⟨link, hlink, -⟩ := hsome r hr
        exact ⟨link, hlink, by rw [relayedOn_eq_some hlink]; rfl⟩
    rw [← List.forall₂_eq_eq_eq, List.forall₂_map_right_iff]
    exact hslots
  · rw [← Forwarder.map_fst_relayed net.recorded schedule frame followers f]
    exact forall₂_map_filterMap hsome

/-- When a relay failed there are fewer frames than followers. -/
theorem Forwarder.length_written_ne {schedule : List Nat} {frame : ByteArray}
    {followers : List String} {f : Forwarder (σ × List Event)} (hf : f.network.2 = [])
    (hfault : firstFault ((f.relayed net.recorded schedule frame followers).1.map
      (Sending.result ·.2)) ≠ none) :
    ((f.relayed net.recorded schedule frame followers).2.network.2.filterMap
      (Event.writtenOn frame)).length ≠ followers.length := by
  have h := relaying_relayed net schedule frame followers hf
  rw [h.written.length_eq, ← length_relayed net.recorded schedule frame followers f]
  refine length_filterMap_ne_of_fault (fun r link hlink ↦ ?_) hfault
  rw [relayedOn_eq_some hlink]
  rfl

/-- Replies that were collected without a fault acknowledge the request, one from every link. -/
theorem Forwarder.collected_of_firstFault_none {schedule : List Nat} {requestId : Int64}
    {followers : List String} {links : List Link} {f : Forwarder (σ × List Event)}
    (hf : f.network.2.filterMap (Event.acknowledgedOn requestId) = [])
    (hlinks : links.length = followers.length)
    (hnone : firstFault ((f.collected net.recorded schedule requestId followers
      (links.map some)).1.map (Receiving.result ·.2)) = none) :
    ((f.collected net.recorded schedule requestId followers (links.map some)).2.network.2.filterMap
      (Event.acknowledgedOn requestId)).Perm links := by
  let run := f.collected net.recorded schedule requestId followers (links.map some)
  have h : Collecting requestId f.network.2 run.1 run.2 :=
    collecting_collected net schedule requestId followers (links.map some) hf
  have hlink : run.1.map (fun r ↦ r.2.link) = links.map some :=
    map_link_collected net.recorded schedule requestId f (by simp [hlinks])
  have hcollected : run.1.filterMap collectedOn = run.1.filterMap fun r ↦ r.2.link := by
    apply List.filterMap_congr
    rintro ⟨address, stage⟩ hr
    obtain ⟨link, fault, rfl⟩ := settled_of_mem_collected hr
    have hfault := firstFault_eq_none_iff.mp hnone _ (List.mem_map_of_mem hr)
    obtain rfl : fault = none := hfault
    rfl
  have hid : run.1.filterMap (fun r ↦ r.2.link) = links := by
    calc
      _ = (run.1.map fun r ↦ r.2.link).filterMap id := by rw [List.filterMap_map]; rfl
      _ = links := by rw [hlink, List.filterMap_map]; simp
  have := h.acknowledged
  rwa [hcollected, hid] at this

theorem collectedOn_eq_some {r : String × ReceiveStage} {link : Link}
    (h : collectedOn r = some link) : r.2 = .settled (some link) none := by
  obtain ⟨address, stage⟩ := r
  unfold collectedOn at h
  split at h
  · simp_all
  · simp at h

/-- When a reply was missing or refused there are fewer acknowledgements than followers. -/
theorem Forwarder.length_acknowledged_ne {schedule : List Nat} {requestId : Int64}
    {followers : List String} {slots : List (Option Link)} {f : Forwarder (σ × List Event)}
    (hf : f.network.2.filterMap (Event.acknowledgedOn requestId) = [])
    (hslots : slots.length = followers.length)
    (hfault : firstFault ((f.collected net.recorded schedule requestId followers slots).1.map
      (Receiving.result ·.2)) ≠ none) :
    ((f.collected net.recorded schedule requestId followers slots).2.network.2.filterMap
      (Event.acknowledgedOn requestId)).length ≠ followers.length := by
  have h := collecting_collected net schedule requestId followers slots hf
  have hrun := congrArg List.length
    (map_link_collected net.recorded schedule requestId f (Nat.le_of_eq hslots))
  rw [List.length_map, hslots] at hrun
  rw [h.acknowledged.length_eq, ← hrun]
  refine length_filterMap_ne_of_fault (fun r link hlink ↦ ?_) hfault
  rw [collectedOn_eq_some hlink]
  rfl

end Follower

/-! ## Handlings on a recording network -/

def Environment.recorded (env : Environment ω σ) : Environment ω (σ × List Event) :=
  env.withNetwork env.network.recorded

namespace Handling

def record (x : Handling ω (σ × List Event)) : List Event :=
  x.node.forwarder.network.2

/-- The storage accepts the packet, which has to match its checksum if it is a write. -/
def Accepted (env : Environment ω σ) (x : Handling ω σ) : Prop :=
  (x.request.packet.header.opcode = .write →
    Checksum.crc32 x.request.packet.payload = x.request.packet.header.crc) ∧
    ∃ op a, operationOf x.request.packet = .ok op ∧ (env.engine op x.node.store).1 = .ok a

theorem crc32_of_operationOf {p : Packet} {op : Extent.Operation} (h : operationOf p = .ok op)
    (hw : p.header.opcode = .write) : Checksum.crc32 p.payload = p.header.crc := by
  simp only [operationOf, hw, Packet.verifyChecksum] at h
  by_contra hne
  simp [hne] at h

theorem accepted_iff {env : Environment ω σ} {x : Handling ω σ} :
    x.Accepted env ↔ ∃ a y, x.perform env = (.ok a, y) := by
  unfold Accepted perform
  rcases ho : operationOf x.request.packet with fault | op
  · simp
  · rcases he : env.engine op x.node.store with ⟨fault | a, store⟩
    · simp [he]
    · simpa [he] using crc32_of_operationOf ho

theorem record_foldl_settle (net : Network σ) (ok : Bool) (links : List (String × Option Link))
    (f : Forwarder (σ × List Event)) :
    (links.foldl (settle net.recorded ok) f).network.2 = f.network.2 := by
  induction links generalizing f with
  | nil => rfl
  | cons l links ih =>
    rw [List.foldl_cons, ih]
    obtain ⟨address, _ | link⟩ := l
    · rfl
    · cases ok with
      | false => rfl
      | true =>
        simp only [settle, if_true, Forwarder.release]
        split <;> rfl

@[simp]
theorem record_finish (env : Environment ω σ) (ok : Bool) (x : Handling ω (σ × List Event)) :
    (x.finish env.recorded ok).record = x.record :=
  record_foldl_settle env.network ok _ _

/-- How collecting the replies ends after the packet was applied. -/
theorem conclude_recorded (env : Environment ω σ) {x : Handling ω (σ × List Event)}
    {links : List Link} (hok : x.request.isOk = true) (hslots : x.request.slots = links.map some)
    (hlinks : links.length = x.request.followers.length)
    (hunread : x.record.filterMap
      (Event.acknowledgedOn x.request.packet.header.requestId) = []) :
    let y := x.conclude env.recorded none
    let acknowledged := y.record.filterMap
      (Event.acknowledgedOn x.request.packet.header.requestId)
    x.record ⊆ y.record ∧
      (∀ frame, y.record.filterMap (Event.writtenOn frame) =
        x.record.filterMap (Event.writtenOn frame)) ∧
      (y.request.packet.header.result = .ok ∧ acknowledged.Perm links ∨
        y.request.packet.header.result ≠ .ok ∧ acknowledged.length ≠ links.length) := by
  let requestId := x.request.packet.header.requestId
  let run := x.node.forwarder.collected env.recorded.network env.recorded.receiveSchedule requestId
    x.request.followers (links.map some)
  have hcollecting : Collecting requestId x.record run.1 run.2 :=
    collecting_collected env.network _ _ _ _ hunread
  have hreceive : x.receive env.recorded =
      x.settleExchange receiveAction (run.1.map (Receiving.result ·.2)) run.2 := by
    rw [receive_of_slots env.recorded x (by rw [hslots, List.length_map, hlinks]), hslots]
  have hconclude : x.conclude env.recorded none =
      (x.receive env.recorded).2.finish env.recorded (x.receive env.recorded).1.isNone := by
    rw [conclude, hok]
    rfl
  intro y acknowledged
  have hrecord : y.record = run.2.network.2 := by
    simp only [y, hconclude, record_finish, hreceive, settleExchange]
    split <;> rfl
  refine ⟨hrecord ▸ hcollecting.before_subset, fun frame ↦ hrecord ▸ hcollecting.written frame, ?_⟩
  simp only [acknowledged, hrecord]
  rcases hfault : firstFault (run.1.map (Receiving.result ·.2)) with _ | fault
  · refine .inl ⟨?_, Forwarder.collected_of_firstFault_none hunread hlinks hfault⟩
    simp only [y, hconclude, hreceive, settleExchange, hfault]
    exact of_decide_eq_true hok
  · have hfailed : firstFault (run.1.map (Receiving.result ·.2)) ≠ none := by simp [hfault]
    refine .inr ⟨?_, ?_⟩
    · simp only [y, hconclude, hreceive, settleExchange, hfault]
      exact result_failForward_ne_ok _ _ _
    · rw [hlinks]
      exact Forwarder.length_acknowledged_ne hunread (by simp [hlinks]) hfailed

/-- How a packet ends that was sent to all its followers. -/
theorem applied_recorded (env : Environment ω σ) {x : Handling ω (σ × List Event)}
    {links : List Link} (hslots : x.request.slots = links.map some)
    (hlinks : links.length = x.request.followers.length)
    (hstreams : x.request.packet.header.opcode.streamsReply = false)
    (hunread : x.record.filterMap
      (Event.acknowledgedOn x.request.packet.header.requestId) = []) :
    let y := (x.operate env.recorded).2.conclude env.recorded (x.operate env.recorded).1
    let acknowledged := y.record.filterMap
      (Event.acknowledgedOn x.request.packet.header.requestId)
    x.record ⊆ y.record ∧
      (∀ frame, y.record.filterMap (Event.writtenOn frame) =
        x.record.filterMap (Event.writtenOn frame)) ∧
      (y.request.packet.header.result = .ok ∧ x.Accepted env.recorded ∧ acknowledged.Perm links ∨
        y.request.packet.header.result ≠ .ok ∧
          (¬ x.Accepted env.recorded ∨ acknowledged.length ≠ links.length)) := by
  intro y acknowledged
  have hrequest := request_perform env.recorded x
  have hforwarder := forwarder_perform env.recorded x
  rcases hperform : x.perform env.recorded with ⟨fault | a, z⟩
  · rw [hperform] at hrequest hforwarder
    have hrefused : ¬ x.Accepted env.recorded := by simp [accepted_iff, hperform]
    have hy : y = (z.fail .operate fault).finish env.recorded false := by
      have hresult := result_fail_ne_ok .operate fault z
      simp only [y, operate_of_error hperform, conclude, Request.isOk, decide_eq_false hresult]
      rfl
    have hrecord : y.record = x.record := by
      rw [hy, record_finish]
      exact congrArg (·.network.2) hforwarder
    refine ⟨hrecord ▸ List.Subset.refl _, fun frame ↦ by rw [hrecord], .inr ⟨?_, .inl hrefused⟩⟩
    rw [hy]
    exact result_fail_ne_ok .operate fault z
  · rw [hperform] at hrequest hforwarder
    have hoperate : x.operate env.recorded = (none, z.answer (Packet.replyWith a.body)) := by
      refine operate_of_ok hperform ?_
      rw [show z.request = x.request from hrequest]
      exact hstreams
    have haccepted : x.Accepted env.recorded := accepted_iff.mpr ⟨a, z, hperform⟩
    let w := z.answer (Packet.replyWith a.body)
    have hw : w.record = x.record := congrArg (·.network.2) hforwarder
    have hz : z.request = x.request := hrequest
    have hwslots : w.request.slots = links.map some := by
      rw [← hslots, ← hz]
      rfl
    have hwfollowers : w.request.followers = x.request.followers := by
      rw [← hz]
      rfl
    have hwid : w.request.packet.header.requestId = x.request.packet.header.requestId := by
      rw [← hz]
      rfl
    obtain ⟨hsubset, hwritten, hresult⟩ := conclude_recorded env (x := w) rfl hwslots
      (by rw [hwfollowers, hlinks]) (by rw [hw, hwid, hunread])
    have hy : y = w.conclude env.recorded none := by simp only [y, hoperate, w]
    rw [← hy, hw] at hsubset
    refine ⟨hsubset, fun frame ↦ by rw [hy, hwritten, hw], ?_⟩
    simp only [acknowledged, hy]
    rw [hwid] at hresult
    exact hresult.imp (fun h ↦ ⟨h.1, haccepted, h.2⟩) fun h ↦ ⟨h.1, .inr h.2⟩

/-- How a packet that is relayed ends, as its result and the record show. -/
theorem process_recorded_cases (env : Environment ω σ) {x : Handling ω (σ × List Event)}
    {addresses : List String} (hx : x.record = []) (hm : x.request.isMasterCommand = false)
    (hp : Request.parseFollowers x.request.packet = .ok addresses)
    (hf : x.request.isForward = true) :
    let y := (x.process env.recorded).2
    let result := y.request.packet.header.result
    let written := y.record.filterMap (Event.writtenOn (relayFrame x.request.packet))
    let acknowledged := y.record.filterMap
      (Event.acknowledgedOn x.request.packet.header.requestId)
    (result = .ok ∧ x.Accepted env.recorded ∧ ∃ links : List Link,
        List.Forall₂ (Obtained x.node.forwarder.links.idle y.record) addresses links ∧
        written.Perm links ∧ acknowledged.Perm links) ∨
      result ≠ .ok ∧ (written.length ≠ addresses.length ∨ ¬ x.Accepted env.recorded ∨
        acknowledged.length ≠ addresses.length) := by
  intro y result written acknowledged
  let run := x.node.forwarder.relayed env.recorded.network env.recorded.sendSchedule
    (relayFrame x.request.packet) addresses
  let z := (x.resolved addresses).exchanged (run.1.map (Sending.result ·.2)) run.2
  have hrelaying : Relaying (relayFrame x.request.packet) x.node.forwarder.links.idle run.1 run.2 :=
    relaying_relayed env.network _ _ _ hx
  have hf' : (x.resolved addresses).request.isForward = true := hf
  have hprocess : x.process env.recorded = (x.resolved addresses).processResolved env.recorded :=
    process_of_parse_ok hm hp
  have hsend : (x.resolved addresses).send env.recorded = _ := send_resolved env.recorded addresses x
  rcases hfault : firstFault (run.1.map (Sending.result ·.2)) with _ | fault
  · obtain ⟨links, hlinks, hobtained, hwritten⟩ := Forwarder.relayed_of_firstFault_none hx hfault
    have hs : (x.resolved addresses).send env.recorded = (none, z) := by
      simp only [hsend, settleExchange]
      rw [hfault]
    have hy : y = (z.operate env.recorded).2.conclude env.recorded (z.operate env.recorded).1 := by
      simp only [y, hprocess, processResolved_of_sent hf' hs]
    have hslots : z.request.slots = links.map some := by
      rw [← hlinks]
      exact List.map_map
    have hstreams : z.request.packet.header.opcode.streamsReply = false :=
      streamsReply_of_isForward hf
    obtain ⟨hsubset, hsame, hresult⟩ := applied_recorded env hslots hobtained.length_eq.symm hstreams
      (hrelaying.unread _)
    simp only [← hy] at hsubset hsame hresult
    have hperm : written.Perm links := by
      simp only [written, hsame]
      exact hwritten
    refine hresult.imp (fun h ↦ ⟨h.1, h.2.1, links, ?_, hperm, h.2.2⟩) fun h ↦ ⟨h.1, .inr ?_⟩
    · exact hobtained.imp fun _ _ ho ↦ ho.mono hsubset
    · rw [hobtained.length_eq]
      exact h.2
  · have hfailed : firstFault (run.1.map (Sending.result ·.2)) ≠ none := by simp [hfault]
    have hs : (x.resolved addresses).send env.recorded =
        (some fault, z.failForward .sendToFollowers fault) := by
      simp only [hsend, settleExchange]
      rw [hfault]
    have hy : y = (z.failForward .sendToFollowers fault).finish env.recorded false := by
      simp only [y, hprocess, processResolved_of_send_fault hf' hs]
    have hrecord : y.record = run.2.network.2 := by
      rw [hy, record_finish]
      rfl
    refine .inr ⟨?_, .inl ?_⟩
    · simp only [result, hy]
      exact result_failForward_ne_ok _ _ z
    · simp only [written, hrecord]
      exact Forwarder.length_written_ne hx hfailed

/-- The packet left for the client of a relayed packet carries success just when every follower was
linked and sent the whole frame, the storage accepted the packet, and one reply acknowledging the
request was read from every one of those links. -/
theorem result_process_eq_ok_iff (env : Environment ω σ) (x : Handling ω σ) {addresses : List String}
    (hm : x.request.isMasterCommand = false)
    (hp : Request.parseFollowers x.request.packet = .ok addresses)
    (hf : x.request.isForward = true) :
    let record := ((x.map (·, [])).process env.recorded).2.record
    (x.process env).2.request.packet.header.result = .ok ↔
      ∃ links : List Link,
        List.Forall₂ (Obtained x.node.forwarder.links.idle record) addresses links ∧
        (record.filterMap (Event.writtenOn (relayFrame x.request.packet))).Perm links ∧
        x.Accepted env ∧
        (record.filterMap (Event.acknowledgedOn x.request.packet.header.requestId)).Perm links := by
  intro record
  have hproject := process_map env.network.recorded_projects (x.map (·, []))
  have hresult : (x.process env).2.request.packet.header.result =
      ((x.map (·, [])).process env.recorded).2.request.packet.header.result :=
    congrArg (·.2.request.packet.header.result) hproject
  rw [hresult]
  rcases process_recorded_cases env (x := x.map (·, [])) rfl hm hp hf with
    ⟨hok, haccepted, links, hobtained, hwritten, hacknowledged⟩ | ⟨hfailed, hwhy⟩
  · exact iff_of_true hok ⟨links, hobtained, hwritten, haccepted, hacknowledged⟩
  · refine iff_of_false hfailed ?_
    rintro ⟨links, hobtained, hwritten, haccepted, hacknowledged⟩
    rcases hwhy with hwhy | hwhy | hwhy
    · exact hwhy (hwritten.length_eq.trans hobtained.length_eq.symm)
    · exact hwhy haccepted
    · exact hwhy (hacknowledged.length_eq.trans hobtained.length_eq.symm)

/-- A request to create an extent on two more nodes is such a packet. -/
theorem result_process_createExtent_iff :
    let p := (Packet.createExtent 0 1 1 1).withFollowers (Follower.encode ["a:1", "b:2"]).toUTF8 2
    let env := Node.environment {} .unreachable 0
    let x : Handling Extent.Store Unit := ⟨.ofPacket p, Node.ofSettings {} (), .unbounded⟩
    let record := ((x.map (·, [])).process env.recorded).2.record
    (x.process env).2.request.packet.header.result = .ok ↔
      ∃ links : List Link,
        List.Forall₂ (Obtained [] record) ["a:1", "b:2"] links ∧
        (record.filterMap (Event.writtenOn (relayFrame p))).Perm links ∧ x.Accepted env ∧
        (record.filterMap (Event.acknowledgedOn 1)).Perm links := by
  intro p env x record
  have hm : x.request.isMasterCommand = false := rfl
  have hp : Request.parseFollowers x.request.packet = .ok ["a:1", "b:2"] := by decide
  have hf : x.request.isForward = true := by decide
  exact result_process_eq_ok_iff env x hm hp hf

end Handling

end ReplicaChain
