import Mathlib.Data.Prod.Basic
import ReplicaChain.Node.Startup
import ReplicaChain.Proofs.Cluster.Custody
import ReplicaChain.Proofs.Node.Fanout

/-!
# Pooled links are clean

Whatever a node is sent and whatever becomes of its followers, the links that wait in its pool are
clean and filed under the address that was dialed.
-/

namespace ReplicaChain.Cluster

open Follower (Forwarder Link LinkPool ReceiveStage Receiving SendStage Sending relayFrame)
open Handling (Relayable)
open Wire (Packet)

variable {ω τ : Type} {held others : List Held} {p : Packet} {q : LinkPool} {w : World ω τ}
  {f f' : Forwarder (World ω τ)} {address : String}

/-! ## Relays -/

/-- The link that is held for a relay of `p`, and what is known of it. -/
def heldBySending (p : Packet) : String × SendStage → Option Held
  | (_, .waiting) => none
  | (address, .dialing link) => some ⟨address, link, .unknown⟩
  | (address, .connected link) => some ⟨address, link, .clean⟩
  | (_, .settled none _) => none
  | (address, .settled (some link) none) => some ⟨address, link, .asked p⟩
  | (address, .settled (some link) (some _)) => some ⟨address, link, .unknown⟩

theorem address_heldBySending {r : String × SendStage} {x : Held}
    (h : heldBySending p r = some x) : x.address = r.1 := by
  obtain ⟨address, _ | link | link | ⟨_ | link, _ | fault⟩⟩ := r <;>
    simp only [heldBySending, Option.some.injEq, reduceCtorEq] at h <;> rw [← h]

/-- Before a relay has begun, no link is held for it. -/
theorem filterMap_waiting (p : Packet) (followers : List String) :
    (followers.map (·, SendStage.waiting)).filterMap (heldBySending p) = [] := by
  simp [List.filterMap_map, Function.comp_def, heldBySending]

/-- One advance of a relay keeps the links of a node in order. -/
theorem Tidy.sending (hp : Relayable p) {stage stage' : SendStage}
    (ha : Sending.Advances network (relayFrame p) address stage f stage' f')
    (h : Tidy ((heldBySending p (address, stage)).toList ++ others) f.links f.network) :
    Tidy ((heldBySending p (address, stage')).toList ++ others) f'.links f'.network := by
  cases ha with
  | refused hr => exact Tidy.request_refused h hr
  | idle hr => exact Tidy.request_idle h hr
  | dialing hr hd => exact (Tidy.request_toDial h hr).dial_none hd
  | dialed hr hd => exact ((Tidy.request_toDial h hr).dial_succeeded hd).opened
  | undialed fault hr hd hfailed =>
    exact ((Tidy.request_toDial h hr).dial_failed hfailed hd).uncount rfl rfl rfl
  | awaited hd => exact (Tidy.await_succeeded h hd).opened
  | unawaited fault hd hfailed => exact (Tidy.await_failed h hfailed hd).uncount rfl rfl rfl
  | written hw => exact Tidy.write_ok h hp hw
  | unwritten hw => exact Tidy.write_error h hw
  | settled => exact h

/-- After all relays of a packet came to their end, the links of the node are in order. -/
theorem tidy_relayed (hp : Relayable p) (schedule : List Nat) (followers : List String)
    (h : Tidy [] f.links f.network) :
    let run := f.relayed network schedule (relayFrame p) followers
    Tidy (run.1.filterMap (heldBySending p)) run.2.links run.2.network := by
  refine Follower.runAll_induction
    (P := fun l f ↦ Tidy (l.filterMap (heldBySending p)) f.links f.network) ?_ _ ?_
  · intro l f i address stage hi hl
    obtain ⟨others, hold, hnew, -⟩ := Follower.exists_filterMap_perm (heldBySending p) hi
    have hadvances := Sending.advances_advance network (relayFrame p) address stage f
    exact ((hl.perm hold).sending hp hadvances).perm (hnew _).symm
  · rw [filterMap_waiting]
    exact h

/-! ## Replies -/

/-- The link that is held while the reply to `p` is collected, and what is known of it. -/
def heldByReceiving (p : Packet) : String × ReceiveStage → Option Held
  | (_, .pending none) => none
  | (address, .pending (some link)) => some ⟨address, link, .asked p⟩
  | (_, .settled none _) => none
  | (address, .settled (some link) none) => some ⟨address, link, .clean⟩
  | (address, .settled (some link) (some _)) => some ⟨address, link, .unknown⟩

theorem address_heldByReceiving {r : String × ReceiveStage} {x : Held}
    (h : heldByReceiving p r = some x) : x.address = r.1 := by
  obtain ⟨address, (_ | link) | ⟨_ | link, _ | fault⟩⟩ := r <;>
    simp only [heldByReceiving, Option.some.injEq, reduceCtorEq] at h <;> rw [← h]

/-- Before any reply is collected, all links are held for the packet that was relayed. -/
theorem filterMap_pending (p : Packet) (followers : List String) (slots : List (Option Link)) :
    (Forwarder.pending followers slots).filterMap (heldByReceiving p) =
      (followers.zip slots).filterMap (heldInSlot (.asked p)) := by
  rw [Forwarder.pending, List.filterMap_map]
  congr
  funext slot
  obtain ⟨address, _ | link⟩ := slot <;> rfl

/-- A fault says that a follower answered another request. -/
def IsMismatch (fault : Fault) : Prop :=
  ∃ address expected actual, fault = .requestMismatch address expected actual

/-- Whatever keeps a packet from being read says nothing about requests. -/
theorem not_isMismatch_of_decode {pool : BufferPool} {s : Source} {fault : Fault}
    (hd : (Packet.decode pool s).1 = .error fault) : ¬ IsMismatch fault := by
  rintro ⟨_, _, _, rfl⟩
  exact Packet.isUnreadable_of_decode hd

/-- An exchange did not end because a follower answered another request. -/
def Matched (stage : ReceiveStage) : Prop :=
  ∀ link fault, stage = .settled link (some fault) → ¬ IsMismatch fault

/-- Collecting one reply keeps the links of a node in order, and the reply is one to the request. -/
theorem Tidy.receiving (stage : ReceiveStage)
    (h : Tidy ((heldByReceiving p (address, stage)).toList ++ others) f.links f.network) :
    let advanced := Receiving.advance network p.header.requestId address stage f
    Tidy ((heldByReceiving p (address, advanced.1)).toList ++ others) advanced.2.links
        advanced.2.network ∧
      (Matched stage → Matched advanced.1) := by
  rcases stage with (_ | link) | ⟨link, fault⟩
  · refine ⟨h, fun _ link fault hsettled ↦ ?_⟩
    simp only [Receiving.advance, ReceiveStage.settled.injEq, Option.some.injEq] at hsettled
    rintro ⟨_, _, _, rfl⟩
    simp at hsettled
  · rcases hi : network.incoming link f.network with ⟨s, w'⟩
    rcases hd : Packet.decode f.buffers s with ⟨fault | reply, buffers, rest⟩
    · simp only [Receiving.advance, Forwarder.receiveOne, hi, hd]
      refine ⟨Tidy.receive_error h hi hd, fun _ link fault hsettled ↦ ?_⟩
      obtain ⟨-, ⟨⟩⟩ := ReceiveStage.settled.inj hsettled
      exact not_isMismatch_of_decode (by rw [hd])
    · obtain ⟨hclean, hid⟩ := Tidy.receive_ok h hi hd
      by_cases hresult : reply.header.result = .ok
      · have hcheck : Follower.checkReply address p.header.requestId reply = none := by
          simp [Follower.checkReply, hid, hresult]
        simp only [Receiving.advance, Forwarder.receiveOne, hi, hd, hcheck]
        exact ⟨hclean, fun _ link fault hsettled ↦ by simp at hsettled⟩
      · have hcheck : Follower.checkReply address p.header.requestId reply = some
            (.followerRefused address reply.header.result.toByte (Text.Utf8.lossy reply.payload)) := by
          simp [Follower.checkReply, hid, hresult]
        simp only [Receiving.advance, Forwarder.receiveOne, hi, hd, hcheck]
        refine ⟨Tidy.forgetPhase hclean, fun _ link fault hsettled ↦ ?_⟩
        rintro ⟨_, _, _, rfl⟩
        simp at hsettled
  · exact ⟨h, id⟩

/-- After all replies to a packet were collected, the links of the node are in order, and no follower
answered another request. -/
theorem tidy_collected (schedule : List Nat) {followers : List String} {slots : List (Option Link)}
    (h : Tidy ((followers.zip slots).filterMap (heldInSlot (.asked p))) f.links f.network) :
    let run := f.collected network schedule p.header.requestId followers slots
    Tidy (run.1.filterMap (heldByReceiving p)) run.2.links run.2.network ∧
      ∀ r ∈ run.1, Matched r.2 := by
  refine Follower.runAll_induction (P := fun l f ↦
    Tidy (l.filterMap (heldByReceiving p)) f.links f.network ∧ ∀ r ∈ l, Matched r.2) ?_ _ ⟨?_, ?_⟩
  · intro l f i address stage hi ⟨hl, hmatched⟩
    obtain ⟨others, hold, hnew, -⟩ := Follower.exists_filterMap_perm (heldByReceiving p) hi
    obtain ⟨htidy, hmatch⟩ := (hl.perm hold).receiving stage
    refine ⟨htidy.perm (hnew _).symm, fun r hr ↦ ?_⟩
    rcases List.mem_or_eq_of_mem_set hr with hr | rfl
    · exact hmatched r hr
    · exact hmatch (hmatched _ (List.mem_of_getElem? hi))
  · rw [filterMap_pending]
    exact h
  · intro r hr
    obtain ⟨slot, -, rfl⟩ := List.mem_map.mp hr
    intro link fault hsettled
    cases hsettled

/-! ## Slots -/

section Slots

variable {St : Type} {l : List (String × St)} {heldBy : String × St → Option Held}
  {linkOf : String × St → Option Link} {phase : Phase}

theorem filterMap_slots (phase : Phase) (l : List (String × St))
    (linkOf : String × St → Option Link) :
    ((l.map Prod.fst).zip (l.map linkOf)).filterMap (heldInSlot phase) =
      l.filterMap fun r ↦ heldInSlot phase (r.1, linkOf r) := by
  rw [List.zip_map', List.filterMap_map]
  rfl

/-- When all exchanges have come equally far, the links that they hold are those in the slots. -/
theorem filterMap_slots_eq (heldBy : String × St → Option Held)
    (hheld : ∀ r ∈ l, heldBy r = heldInSlot phase (r.1, linkOf r)) :
    ((l.map Prod.fst).zip (l.map linkOf)).filterMap (heldInSlot phase) = l.filterMap heldBy := by
  rw [filterMap_slots, List.filterMap_congr hheld]

/-- However far exchanges have come, the links in the slots are those that are held. -/
theorem filterMap_slots_unknown (heldBy : String × St → Option Held)
    (hheld : ∀ r ∈ l, (heldBy r).map (fun x ↦ { x with phase := .unknown }) =
      heldInSlot .unknown (r.1, linkOf r)) :
    ((l.map Prod.fst).zip (l.map linkOf)).filterMap (heldInSlot .unknown) =
      (l.filterMap heldBy).map fun x ↦ { x with phase := .unknown } := by
  rw [filterMap_slots, List.map_filterMap, List.filterMap_congr hheld]

theorem Tidy.unknownSlots (h : Tidy (l.filterMap heldBy) q w)
    (hheld : ∀ r ∈ l, (heldBy r).map (fun x ↦ { x with phase := .unknown }) =
      heldInSlot .unknown (r.1, linkOf r)) :
    Tidy (((l.map Prod.fst).zip (l.map linkOf)).filterMap (heldInSlot .unknown)) q w := by
  rw [filterMap_slots_unknown heldBy hheld]
  exact h.forgetPhases

end Slots

/-! ## Handling a packet -/

/-- The links of a node are in order, and none of them is held. -/
def AtRest (f : Forwarder (World ω τ)) : Prop :=
  Tidy [] f.links f.network

section Handling

variable {υ : Type} {env : Environment υ (World ω τ)} {x y z : Handling υ (World ω τ)}

/-- A packet was relayed to every follower, each of which is linked and has not been heard yet. -/
structure Awaiting (p : Packet) (x : Handling υ (World ω τ)) : Prop where
  length_eq : x.request.slots.length = x.request.followers.length
  requestId_eq : x.request.packet.header.requestId = p.header.requestId
  tidy : Tidy ((x.request.followers.zip x.request.slots).filterMap (heldInSlot (.asked p)))
    x.node.forwarder.links x.node.forwarder.network

theorem atRest_finish (henv : env.network = network) {ok : Bool} {phase : Phase}
    (hok : ok = true → phase = .clean)
    (h : Tidy ((x.request.followers.zip x.request.slots).filterMap (heldInSlot phase))
      x.node.forwarder.links x.node.forwarder.network) :
    AtRest (x.finish env ok).node.forwarder := by
  have hsettled := h.settle hok
  rw [← henv] at hsettled
  exact hsettled

/-- When no relay failed, every slot holds a link on which the reply is awaited. -/
theorem exists_sent (henv : env.network = network) {followers : List String}
    (hsound : ∀ r ∈ (x.node.forwarder.relayed network env.sendSchedule
      (relayFrame x.request.packet) followers).1, r.2.Sound) :
    let run := x.node.forwarder.relayed network env.sendSchedule (relayFrame x.request.packet)
      followers
    ∃ results, (x.resolved followers).send env =
        (none, (x.resolved followers).exchanged results run.2) ∧
      results.length = followers.length ∧ (∀ slot ∈ results.map Prod.fst, slot.isSome) ∧
      (followers.zip (results.map Prod.fst)).filterMap (heldInSlot (.asked x.request.packet)) =
        run.1.filterMap (heldBySending x.request.packet) := by
  intro run
  have hfollowers : run.1.map Prod.fst = followers :=
    Forwarder.map_fst_relayed network env.sendSchedule _ followers _
  have hlinked : ∀ r ∈ run.1, ∃ link, r.2 = .settled (some link) none := by
    intro r hr
    obtain ⟨link, fault, hstage⟩ := Forwarder.settled_of_mem_relayed hr
    rw [hstage]
    exact SendStage.Sound.exists_link (hstage ▸ hsound r hr)
  have hresults : ∀ r ∈ run.1, ∃ link, Sending.result r.2 = (some link, none) := by
    intro r hr
    obtain ⟨link, hstage⟩ := hlinked r hr
    exact ⟨link, by rw [hstage]; rfl⟩
  obtain ⟨hfault, hslots⟩ := Follower.results_of_linked hresults
  have hsend := Handling.send_resolved env followers x
  rw [henv] at hsend
  refine ⟨run.1.map (Sending.result ·.2), ?_, ?_, hslots, ?_⟩
  · simp only [hsend, Handling.settleExchange]
    rw [hfault]
  · rw [← hfollowers, List.length_map, List.length_map]
  · rw [← hfollowers, List.map_map]
    apply filterMap_slots_eq
    rintro ⟨address, stage⟩ hr
    obtain ⟨link, rfl⟩ := hlinked _ hr
    rfl

/-- When all replies were read, every slot holds a clean link. -/
theorem exists_received (henv : env.network = network)
    (hid : y.request.packet.header.requestId = p.header.requestId)
    (hlength : y.request.slots.length = y.request.followers.length)
    (hsound : ∀ r ∈ (y.node.forwarder.collected network env.receiveSchedule p.header.requestId
      y.request.followers y.request.slots).1, r.2.Sound) :
    let run := y.node.forwarder.collected network env.receiveSchedule p.header.requestId
      y.request.followers y.request.slots
    ∃ results, y.receive env = (none, y.exchanged results run.2) ∧
      (y.request.followers.zip (results.map Prod.fst)).filterMap (heldInSlot .clean) =
        run.1.filterMap (heldByReceiving p) := by
  intro run
  have hfollowers : run.1.map Prod.fst = y.request.followers :=
    Forwarder.map_fst_collected network _ _ _ (Nat.le_of_eq hlength.symm)
  have hlinked : ∀ r ∈ run.1, ∃ link, r.2 = .settled (some link) none := by
    intro r hr
    obtain ⟨link, fault, hstage⟩ := Forwarder.settled_of_mem_collected hr
    rw [hstage]
    exact ReceiveStage.Sound.exists_link (hstage ▸ hsound r hr)
  have hresults : ∀ r ∈ run.1, ∃ link, Receiving.result r.2 = (some link, none) := by
    intro r hr
    obtain ⟨link, hstage⟩ := hlinked r hr
    exact ⟨link, by rw [hstage]; rfl⟩
  have hfault := (Follower.results_of_linked hresults).1
  have hreceive := Handling.receive_of_slots env y hlength
  rw [henv, hid] at hreceive
  refine ⟨run.1.map (Receiving.result ·.2), ?_, ?_⟩
  · simp only [hreceive, Handling.settleExchange]
    rw [hfault]
  · rw [← hfollowers, List.map_map]
    apply filterMap_slots_eq
    rintro ⟨address, stage⟩ hr
    obtain ⟨link, rfl⟩ := hlinked _ hr
    rfl

/-- Sending either comes to await the replies, or fails with links of which nothing is known. -/
theorem send_cases (henv : env.network = network) {addresses : List String}
    (hp : Relayable x.request.packet) (h : AtRest x.node.forwarder) :
    (∃ y, (x.resolved addresses).send env = (none, y) ∧ Awaiting x.request.packet y) ∨
      ∃ fault y, (x.resolved addresses).send env = (some fault, y) ∧
        Tidy ((y.request.followers.zip y.request.slots).filterMap (heldInSlot .unknown))
          y.node.forwarder.links y.node.forwarder.network := by
  let p := x.request.packet
  let run := x.node.forwarder.relayed network env.sendSchedule (relayFrame p) addresses
  let linkOf (r : String × SendStage) : Option Link := (Sending.result r.2).1
  let y := (x.resolved addresses).exchanged (run.1.map (Sending.result ·.2)) run.2
  have hrun : Tidy (run.1.filterMap (heldBySending p)) run.2.links run.2.network :=
    tidy_relayed hp env.sendSchedule addresses h
  have haddresses : addresses = run.1.map Prod.fst :=
    (Forwarder.map_fst_relayed network env.sendSchedule (relayFrame p) addresses _).symm
  have hfollowers : y.request.followers = run.1.map Prod.fst := haddresses
  have hslots : y.request.slots = run.1.map linkOf := List.map_map
  have hsend := Handling.send_resolved env addresses x
  rw [henv] at hsend
  cases hfault : Follower.firstFault (run.1.map (Sending.result ·.2)) with
  | none =>
    have hs : (x.resolved addresses).send env = (none, y) := by
      simp only [hsend, Handling.settleExchange]
      rw [hfault]
    refine .inl ⟨y, hs, by rw [hslots, hfollowers, List.length_map, List.length_map], rfl, ?_⟩
    rw [hfollowers, hslots, filterMap_slots_eq (heldBySending p)]
    · exact hrun
    rintro ⟨address, stage⟩ hr
    obtain ⟨link, fault, rfl⟩ := Forwarder.settled_of_mem_relayed hr
    obtain rfl : fault = none :=
      Follower.firstFault_eq_none_iff.mp hfault _ (List.mem_map_of_mem hr)
    cases link <;> rfl
  | some fault =>
    have hs : (x.resolved addresses).send env =
        (some fault, y.failForward .sendToFollowers fault) := by
      simp only [hsend, Handling.settleExchange]
      rw [hfault]
    refine .inr ⟨fault, _, hs, ?_⟩
    change Tidy ((y.request.followers.zip y.request.slots).filterMap _) run.2.links run.2.network
    rw [hfollowers, hslots]
    apply hrun.unknownSlots
    rintro ⟨address, stage⟩ hr
    obtain ⟨link, fault, rfl⟩ := Forwarder.settled_of_mem_relayed hr
    cases link <;> cases fault <;> rfl

/-- After the replies were collected, the links in the slots are clean if all followers acknowledged
the packet. -/
theorem Awaiting.receive (henv : env.network = network) (h : Awaiting p x) :
    let y := (x.receive env).2
    let phase := if (x.receive env).1.isNone then Phase.clean else .unknown
    Tidy ((y.request.followers.zip y.request.slots).filterMap (heldInSlot phase))
      y.node.forwarder.links y.node.forwarder.network := by
  let run := x.node.forwarder.collected network env.receiveSchedule p.header.requestId
    x.request.followers x.request.slots
  let linkOf (r : String × ReceiveStage) : Option Link := (Receiving.result r.2).1
  let y := x.exchanged (run.1.map (Receiving.result ·.2)) run.2
  have hrun : Tidy (run.1.filterMap (heldByReceiving p)) run.2.links run.2.network :=
    (tidy_collected env.receiveSchedule h.tidy).1
  have haddresses : x.request.followers = run.1.map Prod.fst :=
    (Forwarder.map_fst_collected network _ _ _ (Nat.le_of_eq h.length_eq.symm)).symm
  have hfollowers : y.request.followers = run.1.map Prod.fst := haddresses
  have hslots : y.request.slots = run.1.map linkOf := List.map_map
  have hreceive := Handling.receive_of_slots env x h.length_eq
  rw [henv, h.requestId_eq] at hreceive
  cases hfault : Follower.firstFault (run.1.map (Receiving.result ·.2)) with
  | none =>
    have hr : x.receive env = (none, y) := by
      simp only [hreceive, Handling.settleExchange]
      rw [hfault]
    simp only [hr, Option.isNone_none, if_true]
    rw [hfollowers, hslots, filterMap_slots_eq (heldByReceiving p)]
    · exact hrun
    rintro ⟨address, stage⟩ hr
    obtain ⟨link, fault, rfl⟩ := Forwarder.settled_of_mem_collected hr
    obtain rfl : fault = none :=
      Follower.firstFault_eq_none_iff.mp hfault _ (List.mem_map_of_mem hr)
    cases link <;> rfl
  | some fault =>
    have hr : x.receive env = (some fault, y.failForward (Handling.receiveAction fault) fault) := by
      simp only [hreceive, Handling.settleExchange]
      rw [hfault]
    simp only [hr, Option.isNone_some]
    change Tidy ((y.request.followers.zip y.request.slots).filterMap _) run.2.links run.2.network
    rw [hfollowers, hslots]
    apply hrun.unknownSlots
    rintro ⟨address, stage⟩ hr
    obtain ⟨link, fault, rfl⟩ := Forwarder.settled_of_mem_collected hr
    cases link <;> cases fault <;> rfl

/-- No follower is found to have answered another request. -/
theorem Awaiting.matched (henv : env.network = network) (h : Awaiting p x)
    {result : Option Link × Option Fault} {fault : Fault}
    (hr : result ∈ (x.node.forwarder.receive env.network env.receiveSchedule
      x.request.packet.header.requestId x.request.followers x.request.slots).1)
    (hfault : result.2 = some fault) : ¬ IsMismatch fault := by
  rw [henv, h.requestId_eq, Forwarder.receive_eq_collected] at hr
  obtain ⟨⟨address, stage⟩, hstage, rfl⟩ := List.mem_map.mp hr
  obtain ⟨link, fault', rfl⟩ := Forwarder.settled_of_mem_collected hstage
  have hmatched := (tidy_collected env.receiveSchedule h.tidy).2 _ hstage
  exact hmatched link fault (by rw [← hfault]; rfl)

theorem Awaiting.operate (h : Awaiting p x) (env : Environment υ (World ω τ)) :
    Awaiting p (x.operate env).2 := by
  obtain ⟨hfollowers, hslots, hid⟩ := Handling.request_operate env x
  refine ⟨by rw [hslots, hfollowers, h.length_eq], hid.trans h.requestId_eq, ?_⟩
  rw [hslots, hfollowers, Handling.forwarder_operate]
  exact h.tidy

theorem Awaiting.conclude (henv : env.network = network) (h : Awaiting p x) (fault : Option Fault) :
    AtRest (x.conclude env fault).node.forwarder := by
  unfold Handling.conclude
  split
  · refine atRest_finish henv (fun hok ↦ ?_) (h.receive henv)
    rw [if_pos hok]
  · exact atRest_finish henv (by simp) h.tidy.forgetSlots

/-- A packet that is relayed comes to await the replies before they are collected. -/
theorem awaiting_of_collectsAt (henv : env.network = network) (hd : x.request.packet.Decodable)
    (h : AtRest x.node.forwarder) (hz : Handling.CollectsAt env x z) :
    Awaiting x.request.packet z := by
  obtain ⟨hm, addresses, y, -, hf, hs, ho, -⟩ := hz
  have hp : Relayable x.request.packet := ⟨hd, hm, Handling.streamsReply_of_isForward hf⟩
  rcases send_cases henv hp h with ⟨y', hs', hawaiting⟩ | ⟨fault, y', hs', -⟩ <;>
    rw [hs] at hs'
  · obtain ⟨-, rfl⟩ := Prod.mk.inj hs'
    simpa only [ho] using hawaiting.operate env
  · cases hs'

/-- Whatever packet is handled, the links of the node are in order afterwards, and none is held. -/
theorem atRest_process (henv : env.network = network) (hd : x.request.packet.Decodable)
    (h : AtRest x.node.forwarder) : AtRest (x.process env).2.node.forwarder := by
  by_cases hm : x.request.isMasterCommand = true
  · rw [Handling.process_of_isMasterCommand hm, Handling.forwarder_operate]
    exact h
  simp only [Bool.not_eq_true] at hm
  rcases hparse : Request.parseFollowers x.request.packet with fault | addresses
  · rw [Handling.process_of_parse_error hm hparse]
    exact h
  rw [Handling.process_of_parse_ok hm hparse]
  by_cases hf : (x.resolved addresses).request.isForward = true
  · have hp : Relayable x.request.packet := ⟨hd, hm, Handling.streamsReply_of_isForward hf⟩
    rcases send_cases henv hp h with ⟨y, hs, hawaiting⟩ | ⟨fault, y, hs, hunknown⟩
    · rw [Handling.processResolved_of_sent hf hs]
      exact (hawaiting.operate env).conclude henv _
    · rw [Handling.processResolved_of_send_fault hf hs]
      exact atRest_finish henv (by simp) hunknown
  · simp only [Bool.not_eq_true] at hf
    rw [Handling.processResolved_of_local hf, Handling.forwarder_operate]
    exact h

theorem atRest_handle (henv : env.network = network) (hd : p.Decodable) {n : Node υ (World ω τ)}
    (h : AtRest n.forwarder) (k : Sink) : AtRest (Node.handle env p n k).2.1.forwarder := by
  rw [(Node.handle_node env p n k).2]
  have hprocess : AtRest ((n.opening env p k).process env).2.node.forwarder :=
    atRest_process henv hd h
  exact hprocess

end Handling

/-! ## Draining -/

/-- Closing all idle links leaves none. -/
theorem Tidy.closeAll {idle : List (String × Link)}
    (h : Tidy (idle.map fun l ↦ ⟨l.1, l.2, .clean⟩) q w) :
    Tidy [] (LinkPool.forgetMany idle.length q)
      ((idle.map Prod.snd).foldl (fun w link ↦ network.close link w) w) := by
  induction idle generalizing q w with
  | nil => exact h
  | cons l idle ih => exact ih (Tidy.uncount (Tidy.close h) rfl rfl rfl)

theorem AtRest.drain (h : AtRest f) : AtRest (f.drain network).2 := by
  apply Tidy.closeAll
  refine Tidy.handOver (q := { f.links with draining := true, idle := [] }) h [] ?_ rfl rfl
  rw [List.append_nil, inventory, List.append_nil]
  exact .refl _

/-! ## Runs -/

/-- The states in which a node can be between two packets, when its followers are the members of a
world.  It is started without links.  Packets are read off the streams of any clients and are handled
one after another, and followers may do something by themselves at any time. -/
inductive Reachable {υ : Type} : Node υ (World ω τ) → Prop
  | started (store : υ) (limits : Follower.LinkLimits) (buffers : BufferPool)
      (collector : Latency.Collector) {w : World ω τ} (hw : ∀ number, w.lines number = none) :
      Reachable (.idle store limits buffers collector w)
  | handled {env : Environment υ (World ω τ)} (henv : env.network = network)
      {n : Node υ (World ω τ)} (hn : Reachable n) {s : Source} {p : Packet}
      (hd : (Packet.decode n.forwarder.buffers s).1 = .ok p) (client : Sink) :
      Reachable (Node.handle env p (n.setBuffers (Packet.decode n.forwarder.buffers s).2.1) client).2.1
  | refused {n : Node υ (World ω τ)} (hn : Reachable n) {s : Source} {fault : Fault}
      (hd : (Packet.decode n.forwarder.buffers s).1 = .error fault) :
      Reachable (n.setBuffers (Packet.decode n.forwarder.buffers s).2.1)
  | happened {n : Node υ (World ω τ)} (hn : Reachable n) (h : Happening ω τ) :
      Reachable { n with
        forwarder := { n.forwarder with network := n.forwarder.network.happen h } }
  | drained {n : Node υ (World ω τ)} (hn : Reachable n) :
      Reachable { n with forwarder := (n.forwarder.drain network).2 }

section Runs

variable {υ : Type} {env : Environment υ (World ω τ)} {n : Node υ (World ω τ)}

theorem Reachable.turn (henv : env.network = network) (h : Reachable n) {s rest : Source}
    {p : Packet} {buffers : BufferPool} (k : Sink)
    (hd : Packet.decode n.forwarder.buffers s = (.ok p, buffers, rest)) :
    Reachable (Node.handle env p (n.setBuffers buffers) k).2.1 := by
  have hhandled := h.handled henv (s := s) (p := p) (by rw [hd]) k
  rwa [hd] at hhandled

/-- Serving a connection goes through such states only. -/
theorem Reachable.serve (henv : env.network = network) (h : Reachable n) (s : Source) (k : Sink) :
    Reachable (Node.serve env n s k).2.1 := by
  fun_induction Node.serve env n s k with
  | case1 n s k fault buffers rest hd =>
    have hrefused := h.refused (s := s) (by rw [hd])
    rwa [hd] at hrefused
  | case2 n s k p buffers rest hd fault m k' hh =>
    have hm := h.turn henv k hd
    rwa [hh] at hm
  | case3 n s k p buffers rest hd m k' hh ih =>
    have hm := h.turn henv k hd
    rw [hh] at hm
    exact ih hm

theorem Reachable.atRest (h : Reachable n) : AtRest n.forwarder := by
  induction h with
  | started store limits buffers collector hw =>
    refine ⟨.nil, ?_, rfl, ?_, fun number line hline ↦ ?_⟩
    · intro x hx
      cases hx
    · intro x hx
      cases hx
    · simp [Node.idle, hw] at hline
  | @handled env henv n hn s p hd client ih =>
    have hn' : AtRest (n.setBuffers (Packet.decode n.forwarder.buffers s).2.1).forwarder := ih
    exact atRest_handle henv (Packet.decodable_of_decode hd) hn' client
  | refused _ _ ih => exact ih
  | @happened n hn h ih => exact Tidy.evolve ih (World.evolves_happen n.forwarder.network h)
  | drained _ ih => exact ih.drain

/-- Every idle link is filed under the address that was dialed, and its line is clean: every frame
that was written on it was written whole and answered by a reply that was read whole, and no byte is
on its way in either direction. -/
def CleanPool (f : Forwarder (World ω τ)) : Prop :=
  ∀ address link, (address, link) ∈ f.links.idle → link.address = address ∧
    ∃ line, f.network.lines link.number = some line ∧ line.link = link ∧ line.Clean

theorem Tidy.cleanPool (h : Tidy held f.links f.network) : CleanPool f := by
  intro address link hidle
  have hmem : ⟨address, link, .clean⟩ ∈ inventory held f.links :=
    List.mem_append_left _ (List.mem_map.mpr ⟨(address, link), hidle, rfl⟩)
  have hbears := h.bears _ hmem
  obtain ⟨line, hline, hlink, hclean⟩ := hbears.exists_line (by simp)
  exact ⟨hbears.address_eq, line, hline, hlink, hclean⟩

/-- In every run of a node among nodes the idle links are clean and filed under the right address,
every packet that was read from a follower is the reply to the frame that was written last, and no
follower is ever found to have answered another request. -/
theorem Reachable.links_clean (h : Reachable n) :
    CleanPool n.forwarder ∧
      (∀ number line, n.forwarder.network.lines number = some line → Orderly line.history) ∧
      ∀ (env : Environment υ (World ω τ)) (p : Packet) (k : Sink) (z : Handling υ (World ω τ)),
        env.network = network → p.Decodable → Handling.CollectsAt env (n.opening env p k) z →
        CleanPool z.node.forwarder ∧
          ∀ result ∈ (z.node.forwarder.receive env.network env.receiveSchedule
            z.request.packet.header.requestId z.request.followers z.request.slots).1,
          ∀ fault, result.2 = some fault → ¬ IsMismatch fault := by
  refine ⟨h.atRest.cleanPool, h.atRest.orderly, fun env p k z henv hd hz ↦ ?_⟩
  have hrest : AtRest (n.opening env p k).node.forwarder := h.atRest
  have hawaiting := awaiting_of_collectsAt henv hd hrest hz
  exact ⟨hawaiting.tidy.cleanPool, fun result hresult fault hfault ↦
    hawaiting.matched henv hresult hfault⟩

def bareNode {σ : Type} (network : σ) : Node Extent.Store σ :=
  .idle (.empty 10) ⟨1, 1, 1⟩ (.filled 0 0) .disabled network

/-- A node without extents among kind nodes without extents. -/
def bareCluster : Node Extent.Store (World Extent.Store Unit) :=
  bareNode (.ofMembers (fun _ ↦ bareNode ()) (.kind (Node.environment {} .unreachable 0)))

/-- After a request to create an extent on two nodes the link to the second node is idle and clean,
and so it is while the reply to another such request is collected. -/
theorem links_clean_createExtent :
    let p := (Packet.createExtent 0 1 1 1).withFollowers (Follower.encode ["b:2"]).toUTF8 1
    let env := Node.environment {} network 0
    let n := (Node.handle env p (bareCluster.setBuffers
      (Packet.decode bareCluster.forwarder.buffers (.ofBytes p.frame)).2.1) .unbounded).2.1
    n.forwarder.links.idle = [("b:2", ⟨0, "b:2"⟩)] ∧ CleanPool n.forwarder ∧
      ∃ z, Handling.CollectsAt env (n.opening env p .unbounded) z ∧ CleanPool z.node.forwarder := by
  intro p env n
  have hread : (Packet.decode bareCluster.forwarder.buffers (.ofBytes p.frame)).1 = .ok p := by
    decide +kernel
  have hstart : Reachable bareCluster := .started _ _ _ _ fun _ ↦ rfl
  have hn : Reachable n := hstart.handled rfl hread .unbounded
  obtain ⟨hclean, -, hcollects⟩ := hn.links_clean
  let x := (n.opening env p .unbounded).resolved ["b:2"]
  have hsend : (x.send env).1 = none := by decide +kernel
  have hoperate : ((x.send env).2.operate env).1 = none := by decide +kernel
  have hz : Handling.CollectsAt env (n.opening env p .unbounded)
      ((x.send env).2.operate env).2 :=
    ⟨rfl, ["b:2"], (x.send env).2, by decide +kernel, by decide +kernel, Prod.fst_eq_iff.mp hsend,
      Prod.fst_eq_iff.mp hoperate, by decide +kernel⟩
  have hp : p.Decodable := Packet.decodable_of_decode hread
  exact ⟨by decide +kernel, hclean, _, hz, (hcollects env p .unbounded _ rfl hp hz).1⟩

end Runs

end ReplicaChain.Cluster
