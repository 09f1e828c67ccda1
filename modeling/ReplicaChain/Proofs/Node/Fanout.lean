import ReplicaChain.Proofs.Follower.Exchanges
import ReplicaChain.Proofs.Node.Paths

/-!
# Relaying and collecting as one run each

A packet has a slot for each of its followers.  So sending is one run of relays whose links fill the
slots, and receiving is one run of replies over the slots.  When the followers were just found, the slots
are empty, and nothing has to be abandoned for the links.  The first exchange in list order that failed
gives the fault.
-/

namespace ReplicaChain

open Follower

variable {ω σ : Type}

/-- Closes links that the pool is not told about. -/
def Follower.Forwarder.closeAll (net : Network σ) (links : List Link) (f : Forwarder σ) :
    Forwarder σ :=
  { f with network := links.foldl (fun s link ↦ net.close link s) f.network }

namespace Handling

/-- The handling after exchanges with followers that ended in `results`. -/
def exchanged (results : List (Option Link × Option Fault)) (f : Forwarder σ) (x : Handling ω σ) :
    Handling ω σ :=
  { x with request := { x.request with slots := results.map Prod.fst } }.setForwarder f

/-- How exchanges that ended in `results` leave the handling: with the fault of the first that
failed, reported as happening during an action. -/
def settleExchange (action : Fault → Wire.Action) (results : List (Option Link × Option Fault))
    (f : Forwarder σ) (x : Handling ω σ) : Option Fault × Handling ω σ :=
  match firstFault results with
  | none => (none, x.exchanged results f)
  | some fault => (some fault, (x.exchanged results f).failForward (action fault) fault)

/-- Without followers there are no slots either, and nothing is exchanged. -/
theorem exchanged_nil {x : Handling ω σ} (hnil : x.request.followers = [])
    (hslots : x.request.slots.length = x.request.followers.length) :
    x.request.slots = [] ∧ x.exchanged [] x.node.forwarder = x := by
  have hempty : x.request.slots = [] := List.length_eq_zero_iff.mp (by rw [hslots, hnil]; rfl)
  refine ⟨hempty, ?_⟩
  rw [exchanged, List.map_nil, ← hempty]
  rfl

/-- Sending is one run of relays, whose links take the place of those that were in the slots. -/
theorem send_of_slots (env : Environment ω σ) (x : Handling ω σ)
    (hslots : x.request.slots.length = x.request.followers.length) :
    x.send env =
      let run := x.node.forwarder.relayed env.network env.sendSchedule
        (relayFrame x.request.packet) x.request.followers
      x.settleExchange (fun _ ↦ .sendToFollowers) (run.1.map (Sending.result ·.2))
        (run.2.closeAll env.network (x.request.slots.filterMap id)) := by
  by_cases hf : x.request.followers.isEmpty
  · have hnil : x.request.followers = [] := List.isEmpty_iff.mp hf
    obtain ⟨hempty, hx⟩ := exchanged_nil hnil hslots
    rw [send, if_pos hf, hnil, hempty]
    simp [Forwarder.relayed, Forwarder.closeAll, settleExchange, firstFault, hx]
  · let run := x.node.forwarder.relayed env.network env.sendSchedule (relayFrame x.request.packet)
      x.request.followers
    have hlength : (run.1.map (Sending.result ·.2)).length = x.request.slots.length := by
      rw [List.length_map, Forwarder.length_relayed, hslots]
    have htake := List.take_of_length_le (Nat.le_of_eq hlength)
    have hdrop := List.drop_of_length_le (Nat.le_of_eq hlength)
    rw [send, if_neg hf, Forwarder.send_eq_relayed]
    simp only [run] at htake hdrop
    simp only [htake, hdrop, List.map_nil, List.append_nil]
    rfl

theorem send_of_fresh (env : Environment ω σ) (x : Handling ω σ)
    (hslots : x.request.slots = x.request.followers.map fun _ ↦ none) :
    x.send env =
      let sent := x.node.forwarder.send env.network env.sendSchedule (relayFrame x.request.packet)
        x.request.followers
      x.settleExchange (fun _ ↦ .sendToFollowers) sent.1 sent.2 := by
  have hnone : x.request.slots.filterMap id = [] := by simp [hslots]
  rw [send_of_slots env x (by rw [hslots, List.length_map]), hnone, Forwarder.send_eq_relayed]
  rfl

/-- Sending is one run of relays. -/
theorem send_resolved (env : Environment ω σ) (addresses : List String) (x : Handling ω σ) :
    (x.resolved addresses).send env =
      let run := x.node.forwarder.relayed env.network env.sendSchedule
        (relayFrame x.request.packet) addresses
      (x.resolved addresses).settleExchange (fun _ ↦ .sendToFollowers)
        (run.1.map (Sending.result ·.2)) run.2 := by
  rw [send_of_fresh env (x.resolved addresses) rfl, Forwarder.send_eq_relayed]
  rfl

theorem receive_of_followers (env : Environment ω σ) {x : Handling ω σ}
    (hf : ¬ x.request.followers.isEmpty) :
    x.receive env =
      let received := x.node.forwarder.receive env.network env.receiveSchedule
        x.request.packet.header.requestId x.request.followers x.request.slots
      x.settleExchange receiveAction received.1 received.2 := by
  rw [receive, if_neg hf]
  rfl

/-- Receiving is one run of replies. -/
theorem receive_of_slots (env : Environment ω σ) (x : Handling ω σ)
    (hslots : x.request.slots.length = x.request.followers.length) :
    x.receive env =
      let run := x.node.forwarder.collected env.network env.receiveSchedule
        x.request.packet.header.requestId x.request.followers x.request.slots
      x.settleExchange receiveAction (run.1.map (Receiving.result ·.2)) run.2 := by
  by_cases hf : x.request.followers.isEmpty
  · have hnil : x.request.followers = [] := List.isEmpty_iff.mp hf
    obtain ⟨hempty, hx⟩ := exchanged_nil hnil hslots
    rw [receive, if_pos hf, hnil, hempty]
    simp [Forwarder.collected, Forwarder.pending, settleExchange, firstFault, hx]
  · rw [receive_of_followers env hf, Forwarder.receive_eq_collected]

end Handling

end ReplicaChain
