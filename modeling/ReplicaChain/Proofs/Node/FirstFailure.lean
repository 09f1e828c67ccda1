import ReplicaChain.Node.Startup
import ReplicaChain.Proofs.Follower.Transcript

/-!
# The first failure decides

A packet is relayed to all its followers at the same time, and their replies are collected at the same
time, so the exchanges end in any order.  Their outcomes are put together in the order of the addresses:
each slot gets the link of its own exchange, and of the exchanges that failed the one with the lowest
index gives the fault.  No failure keeps another exchange from being carried to its end.
-/

namespace ReplicaChain

open Follower
open Wire (Action Packet)

variable {ω σ : Type}

def Environment.transcribed (env : Environment ω σ) : Environment ω (σ × List Response) :=
  env.withNetwork env.network.transcribed

theorem Follower.Forwarder.closeAll_transcribed (net : Network σ) (links : List Link)
    (f : Forwarder (σ × List Response)) :
    (f.closeAll net.transcribed links).network.2.Perm (links.map .closed ++ f.network.2) := by
  induction links generalizing f with
  | nil => exact .refl _
  | cons link links ih => exact (ih (f.closeAll net.transcribed [link])).trans List.perm_middle

namespace Handling

def transcript (x : Handling ω (σ × List Response)) : List Response :=
  x.node.forwarder.network.2

def idleLinks (x : Handling ω σ) : List (String × Link) :=
  x.node.forwarder.links.idle

/-! ## Outcomes -/

/-- The outcome of exchanges that were made for `x`, one with each follower.  The link of each exchange is
in the slot of its follower, and the first exchange that failed decides: without one nothing else changes,
and with one its fault is returned, reported by the packet and counted once. -/
structure DecidedBy (action : Fault → Action) (exchanges : List Exchange) (x : Handling ω σ)
    (outcome : Option Fault × Handling ω σ) : Prop where
  slots_eq : outcome.2.request.slots = exchanges.map (·.link)
  ok_iff : outcome.1 = none ↔ ∀ e ∈ exchanges, e.fault = none
  fault_iff (fault : Fault) : outcome.1 = some fault ↔ ∃ earlier e later,
    exchanges = earlier ++ e :: later ∧ e.fault = some fault ∧ ∀ e' ∈ earlier, e'.fault = none
  unchanged : outcome.1 = none → outcome.2.request.packet = x.request.packet ∧
    outcome.2.node.forwarder.failures = x.node.forwarder.failures ∧
    outcome.2.node.packetsFailed = x.node.packetsFailed
  reported (fault : Fault) : outcome.1 = some fault →
    outcome.2.request.packet = x.request.packet.replyFault (action fault) fault ∧
    outcome.2.request.packet.header.result = .intraGroupNet ∧
    outcome.2.node.forwarder.failures = x.node.forwarder.failures + 1 ∧
    outcome.2.node.packetsFailed = x.node.packetsFailed + 1

variable {x : Handling ω σ} {f : Forwarder σ} {action : Fault → Action} {exchanges : List Exchange}
  {results : List (Option Link × Option Fault)}

/-- The first fault is that of the exchange with the lowest index. -/
theorem firstFault_exchanges_iff (exchanges : List Exchange) (fault : Fault) :
    firstFault (exchanges.map Exchange.result) = some fault ↔ ∃ earlier e later,
      exchanges = earlier ++ e :: later ∧ e.fault = some fault ∧
        ∀ e' ∈ earlier, e'.fault = none := by
  rw [firstFault, List.findSome?_map, List.findSome?_eq_some_iff]
  rfl

/-- Exchanges that were settled have decided. -/
theorem decidedBy_settleExchange (hpeer : ∀ fault, (action fault).isPeerCommunication = true)
    (hfailures : f.failures = x.node.forwarder.failures) :
    DecidedBy action exchanges x (x.settleExchange action (exchanges.map Exchange.result) f) := by
  have hslots : (exchanges.map Exchange.result).map Prod.fst = exchanges.map (·.link) := by
    rw [List.map_map]
    rfl
  have hnone : firstFault (exchanges.map Exchange.result) = none ↔
      ∀ e ∈ exchanges, e.fault = none := by
    simp [firstFault_eq_none_iff, Exchange.result]
  have hsome (fault : Fault) := firstFault_exchanges_iff exchanges fault
  unfold settleExchange
  rcases hfirst : firstFault (exchanges.map Exchange.result) with _ | first <;>
    rw [hfirst] at hnone hsome
  · exact ⟨hslots, hnone, hsome, fun _ ↦ ⟨rfl, hfailures, rfl⟩, nofun⟩
  · refine ⟨hslots, hnone, hsome, nofun, fun fault hfault ↦ ?_⟩
    obtain rfl := Option.some.inj hfault
    refine ⟨rfl, ?_, congrArg (· + 1) hfailures, rfl⟩
    have hverdict (opcode : Wire.Opcode) :
        Wire.verdict (action first) first opcode = .intraGroupNet := if_pos (hpeer first)
    exact congrArg Wire.ResultCode.forWire (hverdict _)

/-- What is left out of the state of the network decides nothing. -/
theorem DecidedBy.map {τ : Type} {y : Handling ω τ} {outcome : Option Fault × Handling ω τ}
    (h : DecidedBy action exchanges y outcome) (φ : τ → σ) :
    DecidedBy action exchanges (y.map φ) (outcome.1, outcome.2.map φ) :=
  ⟨h.slots_eq, h.ok_iff, h.fault_iff, h.unchanged, h.reported⟩

theorem isPeerCommunication_receiveAction (fault : Fault) :
    (receiveAction fault).isPeerCommunication = true := by
  cases fault <;> rfl

/-! ## Sending and receiving -/

/-- Reporting a fault uses neither the network nor the pool. -/
theorem shared_settleExchange (action : Fault → Action) (results : List (Option Link × Option Fault))
    (f : Forwarder σ) (x : Handling ω σ) :
    (x.settleExchange action results f).2.node.forwarder.network = f.network ∧
      (x.settleExchange action results f).2.idleLinks = f.links.idle := by
  unfold settleExchange
  split <;> exact ⟨rfl, rfl⟩

/-- Every relay of a packet is carried to its end, and the first one that failed decides. -/
theorem exists_relays_send (env : Environment ω σ) (y : Handling ω (σ × List Response))
    (hslots : y.request.slots.length = y.request.followers.length) :
    ∃ relays, List.Forall₂ (Relayed (relayFrame y.request.packet)) y.request.followers relays ∧
      DecidedBy (fun _ ↦ .sendToFollowers) relays y (y.send env.transcribed) ∧
      (y.send env.transcribed).2.transcript.Perm ((y.request.slots.filterMap id).map .closed ++
        (relays.flatMap (·.responses) ++ y.transcript)) ∧
      y.idleLinks.Perm ((y.request.followers.zip relays).flatMap (fun r ↦ r.2.idle r.1) ++
        (y.send env.transcribed).2.idleLinks) := by
  obtain ⟨relays, hrelays, hresults, hmake⟩ := exists_relays env.network env.sendSchedule
    (relayFrame y.request.packet) y.request.followers y.node.forwarder
  let run := y.node.forwarder.relayed env.network.transcribed env.sendSchedule
    (relayFrame y.request.packet) y.request.followers
  let f := run.2.closeAll env.network.transcribed (y.request.slots.filterMap id)
  have hsend : y.send env.transcribed =
      y.settleExchange (fun _ ↦ .sendToFollowers) (relays.map Exchange.result) f := by
    rw [← hresults]
    exact send_of_slots env.transcribed y hslots
  obtain ⟨hnetwork, hidle⟩ :=
    y.shared_settleExchange (fun _ ↦ .sendToFollowers) (relays.map Exchange.result) f
  refine ⟨relays, hrelays, ?_, ?_, ?_⟩ <;> rw [hsend]
  · exact decidedBy_settleExchange (fun _ ↦ rfl) hmake.failures
  · rw [transcript, hnetwork]
    exact (Forwarder.closeAll_transcribed _ _ _).trans (hmake.transcript.append_left _)
  · rw [hidle]
    exact hmake.idle

/-- Every reply to a packet is collected, and the first one that failed decides. -/
theorem exists_replies_receive (env : Environment ω σ) (y : Handling ω (σ × List Response))
    (hslots : y.request.slots.length = y.request.followers.length) :
    ∃ replies, List.Forall₂ (Collected y.request.packet.header.requestId)
        (y.request.followers.zip y.request.slots) replies ∧
      DecidedBy receiveAction replies y (y.receive env.transcribed) ∧
      (y.receive env.transcribed).2.transcript.Perm
        (replies.flatMap (·.responses) ++ y.transcript) := by
  obtain ⟨replies, hreplies, hresults, hmake⟩ := exists_replies env.network env.receiveSchedule
    y.request.packet.header.requestId hslots y.node.forwarder
  let run := y.node.forwarder.collected env.network.transcribed env.receiveSchedule
    y.request.packet.header.requestId y.request.followers y.request.slots
  have hreceive : y.receive env.transcribed =
      y.settleExchange receiveAction (replies.map Exchange.result) run.2 := by
    rw [← hresults]
    exact receive_of_slots env.transcribed y hslots
  obtain ⟨hnetwork, -⟩ := y.shared_settleExchange receiveAction (replies.map Exchange.result) run.2
  refine ⟨replies, hreplies, ?_, ?_⟩ <;> rw [hreceive]
  · exact decidedBy_settleExchange isPeerCommunication_receiveAction hmake.failures
  · rw [transcript, hnetwork]
    exact hmake.transcript

/-- A packet has a slot for each of its followers, and what is in the slots is closed when it is sent.
Sending relays the frame to each follower by itself, and the link that was obtained is in the slot of the
follower, whatever became of the other relays.  Receiving reads one reply from each link, whatever the
others delivered, and leaves the links where they are.  Both times the first failure decides.  The network
does just this and nothing else, as its transcript tells. -/
theorem first_failure_decides (env : Environment ω σ) (x : Handling ω σ)
    (hslots : x.request.slots.length = x.request.followers.length) :
    let sent := (x.map fun s ↦ (s, ([] : List Response))).send env.transcribed
    let received := (x.map fun s ↦ (s, ([] : List Response))).receive env.transcribed
    (x.send env = (sent.1, sent.2.map Prod.fst) ∧
      ∃ relays, List.Forall₂ (Relayed (relayFrame x.request.packet)) x.request.followers relays ∧
        DecidedBy (fun _ ↦ .sendToFollowers) relays x (x.send env) ∧
        sent.2.transcript.Perm
          ((x.request.slots.filterMap id).map .closed ++ relays.flatMap (·.responses)) ∧
        x.idleLinks.Perm ((x.request.followers.zip relays).flatMap (fun r ↦ r.2.idle r.1) ++
          (x.send env).2.idleLinks)) ∧
    (x.receive env = (received.1, received.2.map Prod.fst) ∧
      ∃ replies, List.Forall₂ (Collected x.request.packet.header.requestId)
          (x.request.followers.zip x.request.slots) replies ∧
        DecidedBy receiveAction replies x (x.receive env) ∧
        (x.receive env).2.request.slots = x.request.slots ∧
        received.2.transcript.Perm (replies.flatMap (·.responses))) := by
  intro sent received
  let y := x.map fun s ↦ (s, ([] : List Response))
  have hsend : x.send env = (sent.1, sent.2.map Prod.fst) :=
    send_map_of_slots env.network.transcribed_projects y hslots
  have hreceive : x.receive env = (received.1, received.2.map Prod.fst) :=
    receive_map env.network.transcribed_projects y
  obtain ⟨relays, hrelays, hsent, hsentTranscript, hidle⟩ := y.exists_relays_send env hslots
  obtain ⟨replies, hreplies, hreceived, hreceivedTranscript⟩ := y.exists_replies_receive env hslots
  have hlinks : replies.map (·.link) = x.request.slots :=
    (links_of_collected hreplies).trans (List.map_snd_zip (Nat.le_of_eq hslots))
  have hempty : y.transcript = [] := rfl
  rw [hempty, List.append_nil] at hsentTranscript hreceivedTranscript
  refine ⟨⟨hsend, relays, hrelays, ?_, hsentTranscript, ?_⟩, hreceive, replies, hreplies, ?_, ?_,
    hreceivedTranscript⟩
  · rw [hsend]
    exact hsent.map Prod.fst
  · rw [hsend]
    exact hidle
  · rw [hreceive]
    exact hreceived.map Prod.fst
  · rw [hreceive]
    exact hreceived.slots_eq.trans hlinks

/-- Of two followers the first cannot be reached, and the second is done before the first is dialed.  The
link to the second is kept in its slot, and the fault is that of the first. -/
theorem first_failure_decides_unreachable :
    let net : Network Unit :=
      { Network.unreachable with
        dial := fun link s ↦
          (some (if link.address = "a:1" then .failed Network.noRoute else .succeeded), s)
        write := fun _ _ s ↦ (.ok (), s) }
    let env := { Node.environment {} net 0 with sendSchedule := [1, 1], receiveSchedule := [1] }
    let p := (Packet.createExtent 0 1 1 1).withFollowers (Follower.encode ["a:1", "b:2"]).toUTF8 2
    let arrived : Handling Extent.Store Unit := ⟨.ofPacket p, Node.ofSettings {} (), .unbounded⟩
    let x := arrived.resolve.2
    x.request.slots.length = x.request.followers.length ∧
      (x.send env).1 = some (.io Network.noRoute) ∧
      ∃ relays, List.Forall₂ (Relayed (relayFrame p)) ["a:1", "b:2"] relays ∧
        relays.map (·.link) = [none, some ⟨0, "b:2"⟩] ∧
        DecidedBy (fun _ ↦ .sendToFollowers) relays x (x.send env) := by
  intro net env p arrived x
  have hslots : x.request.slots.length = x.request.followers.length := by decide +kernel
  have hfollowers : x.request.followers = ["a:1", "b:2"] := by decide +kernel
  have hlinks : (x.send env).2.request.slots = [none, some ⟨0, "b:2"⟩] := by decide +kernel
  obtain ⟨⟨-, relays, hrelays, hdecided, -⟩, -⟩ := first_failure_decides env x hslots
  refine ⟨hslots, by decide +kernel, relays, ?_, hdecided.slots_eq.symm.trans hlinks, hdecided⟩
  have hpacket : x.request.packet = p := by decide +kernel
  rwa [hfollowers, hpacket] at hrelays

end Handling

end ReplicaChain
