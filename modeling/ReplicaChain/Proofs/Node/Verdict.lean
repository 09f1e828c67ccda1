import ReplicaChain.Node.Startup
import ReplicaChain.Proofs.Extent.Effect
import ReplicaChain.Proofs.Node.Application
import ReplicaChain.Proofs.Node.Fanout
import ReplicaChain.Proofs.Wire.ErrorBody

/-!
# What a reply tells about the storage

The action that an error reply reports tells how far its packet came.  Up to the relay the storage was
not asked, after a refusal it is as it was, and when a follower did not acknowledge the packet the
node itself has applied it.  Nothing else is ever reported: a relay that did not fail has left a link
in every slot, so that no reply is looked for without one.
-/

namespace ReplicaChain

open Follower
open Wire (Action Packet)

variable {ω σ : Type}

/-! ## Slots after a relay that did not fail -/

namespace Follower

variable {net : Network σ}

/-- A relay does not end without a link and without a fault. -/
def SendStage.Conclusive : SendStage → Prop
  | .settled none none => False
  | _ => True

theorem conclusive_advance (net : Network σ) (frame : ByteArray) (address : String)
    {stage : SendStage} (f : Forwarder σ) (h : stage.Conclusive) :
    (Sending.advance net frame address stage f).1.Conclusive := by
  have hadvances := Sending.advances_advance net frame address stage f
  generalize Sending.advance net frame address stage f = advanced at hadvances ⊢
  obtain ⟨stage', f'⟩ := advanced
  cases hadvances with
  | settled => exact h
  | _ => trivial

/-- When all relays succeeded, all of them ended with a link. -/
theorem Forwarder.isSome_of_firstFault_none {schedule : List Nat} {frame : ByteArray}
    {followers : List String} {f : Forwarder σ}
    (hnone : firstFault ((f.relayed net schedule frame followers).1.map (Sending.result ·.2)) = none) :
    ∀ slot ∈ (((f.relayed net schedule frame followers).1.map (Sending.result ·.2)).map Prod.fst),
      slot.isSome := by
  have hconclusive : ∀ r ∈ (f.relayed net schedule frame followers).1, r.2.Conclusive := by
    refine forall_mem_runAll (P := fun _ ↦ SendStage.Conclusive)
      (fun address stage ↦ conclusive_advance net frame address) _ fun r hr ↦ ?_
    obtain ⟨address, -, rfl⟩ := List.mem_map.mp hr
    trivial
  refine (results_of_linked fun r hr ↦ ?_).2
  have hfault := firstFault_eq_none_iff.mp hnone _ (List.mem_map_of_mem hr)
  have hstage := hconclusive r hr
  obtain ⟨link, fault, hsettled⟩ := settled_of_mem_relayed hr
  rw [hsettled] at hfault hstage ⊢
  obtain rfl : fault = none := hfault
  cases link with
  | none => exact hstage.elim
  | some link => exact ⟨link, rfl⟩

/-- A reply is collected from a link, or was. -/
def ReceiveStage.Linked : ReceiveStage → Prop
  | .pending link => link.isSome
  | .settled _ fault => ∀ address, fault ≠ some (.unlinked address)

theorem checkReply_ne_unlinked (address : String) (requestId : Int64) (reply : Packet) (a : String) :
    checkReply address requestId reply ≠ some (.unlinked a) := by
  unfold checkReply
  split
  · simp
  · split <;> simp

theorem linked_advance (net : Network σ) (requestId : Int64) (address : String)
    {stage : ReceiveStage} (f : Forwarder σ) (h : stage.Linked) :
    (Receiving.advance net requestId address stage f).1.Linked := by
  rcases stage with (_ | link) | ⟨link, fault⟩
  · simp [ReceiveStage.Linked] at h
  · intro a
    simp only [Forwarder.receiveOne]
    rcases hd : Packet.decode f.buffers (net.incoming link f.network).1 with ⟨fault | reply, _, _⟩
    · rintro ⟨⟩
      exact Packet.isUnreadable_of_decode (by rw [hd])
    · exact checkReply_ne_unlinked address requestId reply a
  · exact h

/-- When there is a link in every slot, no reply is looked for without one. -/
theorem Forwarder.firstFault_collected_ne_unlinked (net : Network σ) (schedule : List Nat)
    (requestId : Int64) (followers : List String) {slots : List (Option Link)} (f : Forwarder σ)
    (hslots : ∀ slot ∈ slots, slot.isSome) (address : String) :
    firstFault ((f.collected net schedule requestId followers slots).1.map (Receiving.result ·.2)) ≠
      some (.unlinked address) := by
  have hlinked : ∀ r ∈ (f.collected net schedule requestId followers slots).1, r.2.Linked := by
    refine forall_mem_runAll (P := fun _ ↦ ReceiveStage.Linked)
      (fun a stage ↦ linked_advance net requestId a) _ fun r hr ↦ ?_
    obtain ⟨⟨a, slot⟩, hslot, rfl⟩ := List.mem_map.mp hr
    exact hslots slot (List.of_mem_zip hslot).2
  intro hfault
  obtain ⟨r, hr, hunlinked⟩ := exists_of_firstFault hfault
  have hstage := hlinked r hr
  obtain ⟨link, fault, hsettled⟩ := settled_of_mem_collected hr
  rw [hsettled] at hunlinked hstage
  exact hstage address hunlinked

end Follower

/-! ## How far a packet came -/

namespace Handling

variable {env : Environment ω σ} {x y : Handling ω σ}

/-- What an error reply that reports an action says about the packet that `x` began with. -/
def Means (engine : Extent.Engine ω) (x y : Handling ω σ) : Action → Prop
  | .prepare => y.node.store = x.node.store ∧ y.node.forwarder = x.node.forwarder
  | .sendToFollowers => y.node.store = x.node.store
  | .operate => ∃ fault, performed engine x.request.packet x.node.store = (.error fault, y.node.store)
  | .receiveFromFollower =>
    ∃ a, performed engine x.request.packet x.node.store = (.ok a, y.node.store)
  | _ => False

/-- Handling a packet ended with its success at the storage, and with success or a fault of the
client's stream; or with an error reply that says how far the packet came. -/
inductive Ended (engine : Extent.Engine ω) (x : Handling ω σ) : Option Fault × Handling ω σ → Prop
  | succeeded {fault : Option Fault} {y : Handling ω σ} {a : Extent.Answer}
      (hperformed : performed engine x.request.packet x.node.store = (.ok a, y.node.store))
      (hresult : fault = none → y.request.packet.header.result = .ok) : Ended engine x (fault, y)
  | failed {y : Handling ω σ} {p : Packet} (action : Action) (fault : Fault)
      (hreply : y.request.packet = p.replyFault action fault) (hmeans : Means engine x y action) :
      Ended engine x (none, y)

theorem Ended.of_resolved {engine : Extent.Engine ω} {addresses : List String}
    {result : Option Fault × Handling ω σ} (h : Ended engine (x.resolved addresses) result) :
    Ended engine x result := by
  cases h with
  | succeeded hperformed hresult => exact .succeeded hperformed hresult
  | failed action fault hreply hmeans =>
    refine .failed action fault hreply ?_
    cases action <;> exact hmeans

theorem ended_operate (env : Environment ω σ) (x : Handling ω σ) :
    Ended env.engine x (x.operate env) := by
  have hperform := perform_eq_performed env x
  rcases ho : performed env.engine x.request.packet x.node.store with ⟨fault | a, store⟩
  · rw [ho] at hperform
    rw [operate_of_error hperform]
    exact .failed .operate fault rfl ⟨fault, ho⟩
  · rw [ho] at hperform
    cases hs : x.request.packet.header.opcode.streamsReply with
    | false =>
      rw [operate_of_ok hperform hs]
      exact .succeeded ho fun _ ↦ rfl
    | true =>
      rw [operate_of_streamed hperform hs, stream]
      split
      · exact .succeeded ho (by simp)
      · exact .succeeded ho fun _ ↦ rfl

/-- What becomes of a packet that was relayed on a link in every slot. -/
theorem ended_conclude (env : Environment ω σ) {y : Handling ω σ}
    (hpacket : y.request.packet = x.request.packet) (hstore : y.node.store = x.node.store)
    (hlength : y.request.slots.length = y.request.followers.length)
    (hslots : ∀ slot ∈ y.request.slots, slot.isSome)
    (hstreams : y.request.packet.header.opcode.streamsReply = false) :
    Ended env.engine x ((y.operate env).1, (y.operate env).2.conclude env (y.operate env).1) := by
  have hperform := perform_eq_performed env y
  rw [hpacket, hstore] at hperform
  rcases ho : performed env.engine x.request.packet x.node.store with ⟨fault | a, store⟩
  · rw [ho] at hperform
    have hresult := result_fail_ne_ok .operate fault { y with node := { y.node with store } }
    rw [operate_of_error hperform, conclude, if_neg (by simpa [Request.isOk] using hresult)]
    exact .failed .operate fault rfl ⟨fault, ho⟩
  · rw [ho] at hperform
    rw [operate_of_ok hperform hstreams]
    let z : Handling ω σ :=
      { y with node := { y.node with store } }.answer (Packet.replyWith a.body)
    have hconclude : z.conclude env none = (z.receive env).2.finish env (z.receive env).1.isNone :=
      if_pos rfl
    change Ended env.engine x (none, z.conclude env none)
    rw [hconclude, receive_of_slots env z hlength]
    have hlinked := Forwarder.firstFault_collected_ne_unlinked env.network env.receiveSchedule
      z.request.packet.header.requestId z.request.followers z.node.forwarder hslots
    simp only [settleExchange]
    split
    · exact .succeeded ho fun _ ↦ rfl
    · rename_i fault hfault
      have haction : receiveAction fault = .receiveFromFollower := by
        cases fault with
        | unlinked address => exact absurd hfault (hlinked address)
        | _ => rfl
      rw [haction]
      exact .failed .receiveFromFollower fault rfl ⟨a, ho⟩

/-- Every packet ends in one of these ways. -/
theorem ended_process (env : Environment ω σ) (x : Handling ω σ) :
    Ended env.engine x (x.process env) := by
  by_cases hm : x.request.isMasterCommand = true
  · rw [process_of_isMasterCommand hm]
    exact ended_operate env x
  simp only [Bool.not_eq_true] at hm
  rcases hp : Request.parseFollowers x.request.packet with fault | addresses
  · rw [process_of_parse_error hm hp]
    exact .failed .prepare fault rfl ⟨rfl, rfl⟩
  rw [process_of_parse_ok hm hp]
  by_cases hf : (x.resolved addresses).request.isForward = true
  · let run := x.node.forwarder.relayed env.network env.sendSchedule
      (relayFrame x.request.packet) addresses
    let results := run.1.map (Sending.result ·.2)
    have hsend := send_resolved env addresses x
    rcases hfault : firstFault results with _ | fault
    · have hs : (x.resolved addresses).send env =
          (none, (x.resolved addresses).exchanged results run.2) := by
        simp only [hsend, settleExchange]
        rw [hfault]
      have hstreams : x.request.packet.header.opcode.streamsReply = false :=
        streamsReply_of_isForward hf
      rw [processResolved_of_sent hf hs]
      refine ended_conclude env rfl rfl ?_ (Forwarder.isSome_of_firstFault_none hfault) hstreams
      change (results.map Prod.fst).length = addresses.length
      rw [List.length_map, List.length_map, Forwarder.length_relayed]
    · have hs : (x.resolved addresses).send env = (some fault,
          ((x.resolved addresses).exchanged results run.2).failForward .sendToFollowers fault) := by
        simp only [hsend, settleExchange]
        rw [hfault]
      rw [processResolved_of_send_fault hf hs]
      exact .failed .sendToFollowers fault rfl rfl
  · simp only [Bool.not_eq_true] at hf
    rw [processResolved_of_local hf]
    exact (ended_operate env (x.resolved addresses)).of_resolved

/-! ## The storage -/

/-- One successful operation, the one that a packet asks for, takes one storage to another. -/
def Took (p : Packet) (s s' : Extent.Store) : Prop :=
  ∃ op a, operationOf p = .ok op ∧ s.perform op = .ok (a, s')

theorem took_of_performed {p : Packet} {s s' : Extent.Store} {a : Extent.Answer}
    (h : performed Extent.Store.engine p s = (.ok a, s')) : Took p s s' := by
  unfold performed at h
  rcases ho : operationOf p with fault | op
  · simp [ho] at h
  · simp only [ho, Extent.Store.engine] at h
    rcases hp : s.perform op with fault | ⟨b, t⟩
    · simp [hp, Except.mapError] at h
    · simp only [hp, Prod.mk.injEq] at h
      exact ⟨op, b, ho, by rw [hp, h.2]⟩

theorem store_of_performed_error {p : Packet} {s s' : Extent.Store} {fault : Fault}
    (h : performed Extent.Store.engine p s = (.error fault, s')) : s' = s := by
  unfold performed at h
  rcases ho : operationOf p with fault' | op
  · simp only [ho, Prod.mk.injEq] at h
    exact h.2.symm
  · simp only [ho] at h
    rcases Extent.Store.engine_cases op s with ⟨fault', he⟩ | ⟨a, t, he, -⟩
    · simp only [he, Prod.mk.injEq] at h
      exact h.2.symm
    · simp [he, Except.mapError] at h

/-- What an error reply that reports an action tells about the storage before and after. -/
def Tells (x y : Handling Extent.Store σ) : Action → Prop
  | .prepare => y.node.store = x.node.store ∧ y.node.forwarder = x.node.forwarder
  | .sendToFollowers | .operate => y.node.store = x.node.store
  | .receiveFromFollower => Took x.request.packet x.node.store y.node.store
  | _ => False

theorem Means.tells {x y : Handling Extent.Store σ} {action : Action}
    (h : Means Extent.Store.engine x y action) : Tells x y action := by
  cases action with
  | operate => exact store_of_performed_error h.choose_spec
  | receiveFromFollower => exact took_of_performed h.choose_spec
  | _ => exact h

/-- The reply to a packet tells whether the storage changed, whatever the packet, the storage and the
followers are.  After a success, or when the stream of a client failed that was being answered on it,
the packet's operation was carried out once and succeeded.  An error reply reports one action, and what
it reports tells whether the operation was carried out; no other action than the four that a packet goes
through is ever reported, and a packet that could not be prepared has reached no follower. -/
theorem reply_tells_store {env : Environment Extent.Store σ} {x y : Handling Extent.Store σ}
    {fault : Option Fault} (henv : env.engine = Extent.Store.engine)
    (hy : x.process env = (fault, y)) :
    let reply := y.request.packet
    (fault ≠ none → Took x.request.packet x.node.store y.node.store) ∧
      (fault = none →
        (reply.header.result = .ok → Took x.request.packet x.node.store y.node.store) ∧
          (reply.header.result ≠ .ok →
            (∃ action, reply.Reports action) ∧ ∀ action, reply.Reports action → Tells x y action)) := by
  intro reply
  have hended := ended_process env x
  rw [henv, hy] at hended
  cases hended with
  | succeeded hperformed hresult =>
    have htook := took_of_performed hperformed
    exact ⟨fun _ ↦ htook, fun hnone ↦ ⟨fun _ ↦ htook, fun hne ↦ absurd (hresult hnone) hne⟩⟩
  | @failed _ p action fault hreply hmeans =>
    have hreports : reply.Reports action := by
      simp only [reply, hreply]
      exact Packet.reports_replyFault action fault p
    refine ⟨fun hne ↦ absurd rfl hne, fun _ ↦ ⟨fun hok ↦ ?_, fun _ ↦ ⟨⟨action, hreports⟩, ?_⟩⟩⟩
    · simp only [reply, hreply] at hok
      exact absurd hok (Packet.faultCode_ne_ok action fault p)
    · intro other hother
      rw [← hreports.unique hother]
      exact hmeans.tells

/-- A request to create an extent that is to be relayed to a follower that cannot be reached is
answered with an error, which reports the relay and tells that there is no extent. -/
theorem reply_tells_store_unreachable :
    let p := (Packet.createExtent 0 1 1 1).withFollowers (Follower.encode ["10.0.0.1:1"]).toUTF8 1
    let env := Node.environment {} .unreachable 0
    let x : Handling Extent.Store Unit := ⟨.ofPacket p, Node.ofSettings {} (), .unbounded⟩
    ∃ y, x.process env = (none, y) ∧ y.request.packet.Reports .sendToFollowers ∧
      y.node.store = x.node.store := by
  intro p env x
  have hfault : (x.process env).1 = none := by decide +kernel
  have hresult : (x.process env).2.request.packet.header.result ≠ .ok := by decide +kernel
  have hpayload : (x.process env).2.request.packet.payload = Action.sendToFollowers.heading ++
      Bytes.ofText "I/O error: Network is unreachable (os error 101)" := by decide +kernel
  rcases hy : x.process env with ⟨fault, y⟩
  rw [hy] at hfault hresult hpayload
  obtain rfl : fault = none := hfault
  have hreports : y.request.packet.Reports .sendToFollowers := ⟨_, hpayload⟩
  have herror := ((reply_tells_store rfl hy).2 rfl).2 hresult
  exact ⟨y, rfl, hreports, herror.2 .sendToFollowers hreports⟩

end Handling

end ReplicaChain
