import ReplicaChain.Proofs.Node.ConnectionFold
import ReplicaChain.Proofs.Node.Fanout
import ReplicaChain.Proofs.Wire.Decoding

/-!
# Nodes that cannot be told apart

Some of what a node comes to know is not to be known to its clients: how a disk failed, and what a follower
wrote into a reply besides its request id and its result.  Two nodes are alike if they differ in nothing else.
Their storages and networks may be in different states, even of different kinds, as long as they do alike
whatever is asked of them; their buffers may differ as well, since a reply that is read takes what room it
needs.

Nodes that are alike stay alike whatever packet they handle, and make the same reply.  So a reply shows nothing
of what they differ in.  A fault carries more than its reply does, and therefore faults are compared without
their detail until they are reported.
-/

namespace ReplicaChain

open Follower
open Wire (Packet)

variable {ω ω' σ τ : Type}

/-! ## Faults without their detail -/

/-- The fault without what it keeps to itself. -/
def StorageFault.withoutDetail : StorageFault → StorageFault
  | .disk _ => .disk ""
  | fault => fault

namespace Fault

def withoutDetail : Fault → Fault
  | storage fault => storage fault.withoutDetail
  | followerRefused address code _ => followerRefused address code ""
  | fault => fault

variable {fault fault' : Fault}

/-- The wording of a fault says nothing of its detail. -/
theorem message_withoutDetail (fault : Fault) : fault.withoutDetail.message = fault.message := by
  cases fault with
  | storage fault => cases fault <;> rfl
  | _ => rfl

theorem verdict_withoutDetail (action : Wire.Action) (fault : Fault) (opcode : Wire.Opcode) :
    Wire.verdict action fault.withoutDetail opcode = Wire.verdict action fault opcode := by
  cases fault with
  | storage fault => cases fault <;> rfl
  | _ => rfl

theorem receiveAction_withoutDetail (fault : Fault) :
    Handling.receiveAction fault.withoutDetail = Handling.receiveAction fault := by
  cases fault <;> rfl

/-- The reply that reports a fault says nothing of its detail. -/
theorem replyFault_congr (h : fault.withoutDetail = fault'.withoutDetail) (action : Wire.Action)
    (p : Packet) : p.replyFault action fault = p.replyFault action fault' := by
  have hverdict : Wire.verdict action fault p.header.opcode = Wire.verdict action fault' p.header.opcode := by
    rw [← verdict_withoutDetail, h, verdict_withoutDetail]
  have hmessage : fault.message = fault'.message := by
    rw [← message_withoutDetail, h, message_withoutDetail]
  rw [Packet.replyFault, Packet.replyFault, Packet.faultCode, Packet.faultCode, hverdict,
    Wire.errorBody, Wire.errorBody, hmessage]

theorem receiveAction_congr (h : fault.withoutDetail = fault'.withoutDetail) :
    Handling.receiveAction fault = Handling.receiveAction fault' := by
  rw [← receiveAction_withoutDetail, h, receiveAction_withoutDetail]

end Fault

/-! ## Storages and networks -/

/-- Two storages do alike on states that are related: their answers are the same, their faults are so
without their detail. -/
structure Extent.Engine.Alike (S : ω → ω' → Prop) (engine : Engine ω) (engine' : Engine ω') : Prop where
  answer_eq : ∀ op w w', S w w' →
    (engine op w).1.mapError StorageFault.withoutDetail =
      (engine' op w').1.mapError StorageFault.withoutDetail
  keeps : ∀ op w w', S w w' → S (engine op w).2 (engine' op w').2

/-- Reads a packet off a link, and leaves what follows it. -/
def Network.answer (net : Network σ) (link : Link) (s : σ) : Except Fault Packet × σ :=
  let incoming := net.incoming link s
  let read := Packet.decode .standard incoming.1
  (read.1, net.leave link read.2.2 incoming.2)

/-- Two replies cannot be read for the same reason, or they have the same request id and the same result,
whatever else is in them. -/
inductive SameReply : Except Fault Packet → Except Fault Packet → Prop where
  | unread (fault : Fault) : SameReply (.error fault) (.error fault)
  | read {p q : Packet} (hid : p.header.requestId = q.header.requestId)
    (hresult : p.header.result = q.header.result) : SameReply (.ok p) (.ok q)

/-- Two networks do alike on states that are related: dials and writes turn out alike, and the replies that
they deliver have the same request ids and the same results. -/
structure Network.Alike (R : σ → τ → Prop) (net : Network σ) (net' : Network τ) : Prop where
  dial : ∀ link s t, R s t →
    (net.dial link s).1 = (net'.dial link t).1 ∧ R (net.dial link s).2 (net'.dial link t).2
  await : ∀ link s t, R s t →
    (net.await link s).1 = (net'.await link t).1 ∧ R (net.await link s).2 (net'.await link t).2
  write : ∀ link b s t, R s t →
    (net.write link b s).1 = (net'.write link b t).1 ∧ R (net.write link b s).2 (net'.write link b t).2
  answer : ∀ link s t, R s t →
    SameReply (net.answer link s).1 (net'.answer link t).1 ∧
      R (net.answer link s).2 (net'.answer link t).2
  close : ∀ link s t, R s t → R (net.close link s) (net'.close link t)

/-- Two environments differ only in storages and networks that do alike. -/
structure Environment.Alike (S : ω → ω' → Prop) (R : σ → τ → Prop) (env : Environment ω σ)
    (env' : Environment ω' τ) : Prop where
  cluster : env.cluster = env'.cluster
  engine : env.engine.Alike S env'.engine
  network : env.network.Alike R env'.network
  now : env.now = env'.now
  elapsed : env.elapsed = env'.elapsed
  sendSchedule : env.sendSchedule = env'.sendSchedule
  receiveSchedule : env.receiveSchedule = env'.receiveSchedule

/-! ## Forwarders -/

/-- Two forwarders have the same links and the same counts, and networks in related states. -/
inductive Follower.Forwarder.Resembles (R : σ → τ → Prop) : Forwarder σ → Forwarder τ → Prop where
  | mk (links : LinkPool) (buffers buffers' : BufferPool) (relays failures : Nat) {s : σ} {t : τ}
    (hnetwork : R s t) :
    Resembles R ⟨links, buffers, relays, failures, s⟩ ⟨links, buffers', relays, failures, t⟩

namespace Follower.Forwarder

variable {R : σ → τ → Prop} {net : Network σ} {net' : Network τ} {f : Forwarder σ} {f' : Forwarder τ}

theorem Resembles.conclude (hf : Resembles R f f') (link : Link) (a : Attempt) :
    (f.conclude link a).1 = (f'.conclude link a).1 ∧
      Resembles R (f.conclude link a).2 (f'.conclude link a).2 := by
  cases hf with
  | mk links buffers buffers' relays failures hnetwork =>
    cases a <;> exact ⟨rfl, .mk _ _ _ _ _ hnetwork⟩

theorem Resembles.awaitDial (h : net.Alike R net') (hf : Resembles R f f') (link : Link) :
    (f.awaitDial net link).1 = (f'.awaitDial net' link).1 ∧
      Resembles R (f.awaitDial net link).2 (f'.awaitDial net' link).2 := by
  cases hf with
  | mk links buffers buffers' relays failures hnetwork =>
    obtain ⟨hattempt, hafter⟩ := h.await link _ _ hnetwork
    unfold Forwarder.awaitDial
    dsimp only
    rw [hattempt]
    exact Resembles.conclude (.mk links buffers buffers' relays failures hafter) link _

theorem Resembles.sending_advance (h : net.Alike R net') (hf : Resembles R f f') (frame : ByteArray)
    (address : String) (stage : SendStage) :
    (Sending.advance net frame address stage f).1 = (Sending.advance net' frame address stage f').1 ∧
      Resembles R (Sending.advance net frame address stage f).2
        (Sending.advance net' frame address stage f').2 := by
  cases stage with
  | waiting =>
    cases hf with
    | mk links buffers buffers' relays failures hnetwork =>
      unfold Sending.advance
      dsimp only
      rcases links.request address with ⟨link | link | fault, links⟩
      · exact ⟨rfl, .mk _ _ _ _ _ hnetwork⟩
      · have hdial := h.dial link _ _ hnetwork
        dsimp only
        generalize net.dial link _ = dialed, net'.dial link _ = dialed' at hdial ⊢
        obtain ⟨attempt, s⟩ := dialed
        obtain ⟨attempt', t⟩ := dialed'
        obtain ⟨rfl, hafter⟩ := hdial
        cases attempt with
        | none => exact ⟨rfl, .mk _ _ _ _ _ hafter⟩
        | some a =>
          obtain ⟨hlink, hlike⟩ :=
            Resembles.conclude (.mk links buffers buffers' relays failures hafter) link a
          exact ⟨congrArg Sending.stageOfLink hlink, hlike⟩
      · exact ⟨rfl, .mk _ _ _ _ _ hnetwork⟩
  | dialing link =>
    obtain ⟨hlink, hlike⟩ := hf.awaitDial h link
    exact ⟨congrArg Sending.stageOfLink hlink, hlike⟩
  | connected link =>
    cases hf with
    | mk links buffers buffers' relays failures hnetwork =>
      have hwrite := h.write link frame _ _ hnetwork
      unfold Sending.advance
      dsimp only
      generalize net.write link frame _ = written, net'.write link frame _ = written' at hwrite ⊢
      obtain ⟨outcome, s⟩ := written
      obtain ⟨outcome', t⟩ := written'
      obtain ⟨rfl, hafter⟩ := hwrite
      cases outcome <;> exact ⟨rfl, .mk _ _ _ _ _ hafter⟩
  | settled link fault => exact ⟨rfl, hf⟩

end Follower.Forwarder

namespace Follower

/-- What is wrong with a reply, if it is no acknowledgement or was not read at all. -/
def faultOfReply (address : String) (requestId : Int64) : Except Fault Packet → Option Fault
  | .error fault => some fault
  | .ok reply => checkReply address requestId reply

/-- A reply is judged by what was read, whatever buffers it was read into. -/
theorem Forwarder.receiveOne_eq (net : Network σ) (requestId : Int64) (address : String) (link : Link)
    (f : Forwarder σ) :
    ∃ buffers, f.receiveOne net requestId address link =
      (faultOfReply address requestId (net.answer link f.network).1,
        { f with buffers, network := (net.answer link f.network).2 }) := by
  obtain ⟨hresult, hrest⟩ := Packet.decode_pool f.buffers .standard (net.incoming link f.network).1
  unfold receiveOne Network.answer
  dsimp only
  rw [← hresult, ← hrest]
  rcases Packet.decode f.buffers (net.incoming link f.network).1 with ⟨fault | reply, buffers, rest⟩
  · exact ⟨buffers, rfl⟩
  · exact ⟨buffers.release reply.data, rfl⟩

/-- What is wrong with two replies that are the same is the same without its detail. -/
theorem faultOfReply_congr {r r' : Except Fault Packet} (h : SameReply r r') (address : String)
    (requestId : Int64) :
    (faultOfReply address requestId r).map Fault.withoutDetail =
      (faultOfReply address requestId r').map Fault.withoutDetail := by
  cases h with
  | unread fault => rfl
  | read hid hresult =>
    unfold faultOfReply checkReply
    dsimp only
    rw [hid, hresult]
    split
    · rfl
    · split <;> rfl

def ReceiveStage.withoutDetail : ReceiveStage → ReceiveStage
  | .pending link => .pending link
  | .settled link fault => .settled link (fault.map Fault.withoutDetail)

def withoutDetail (result : Option Link × Option Fault) : Option Link × Option Fault :=
  (result.1, result.2.map Fault.withoutDetail)

theorem result_withoutDetail (stage : ReceiveStage) :
    Receiving.result stage.withoutDetail = withoutDetail (Receiving.result stage) := by
  cases stage <;> rfl

theorem firstFault_withoutDetail (results : List (Option Link × Option Fault)) :
    firstFault (results.map withoutDetail) = (firstFault results).map Fault.withoutDetail := by
  induction results with
  | nil => rfl
  | cons result results ih =>
    obtain ⟨link, fault⟩ := result
    rw [firstFault] at ih
    rw [firstFault, firstFault, List.map_cons, List.findSome?_cons, List.findSome?_cons, ih]
    cases fault <;> rfl

end Follower

namespace Follower.Forwarder

variable {R : σ → τ → Prop} {net : Network σ} {net' : Network τ} {f : Forwarder σ} {f' : Forwarder τ}

theorem Resembles.receiving_advance (h : net.Alike R net') (hf : Resembles R f f') (requestId : Int64)
    (address : String) {stage stage' : ReceiveStage} (hstage : stage.withoutDetail = stage'.withoutDetail) :
    (Receiving.advance net requestId address stage f).1.withoutDetail =
        (Receiving.advance net' requestId address stage' f').1.withoutDetail ∧
      Resembles R (Receiving.advance net requestId address stage f).2
        (Receiving.advance net' requestId address stage' f').2 := by
  cases stage with
  | settled link fault =>
    cases stage' with
    | settled link' fault' => exact ⟨hstage, hf⟩
    | pending link' => cases hstage
  | pending link =>
    cases stage' with
    | settled link' fault' => cases hstage
    | pending link' =>
      obtain rfl : link = link' := ReceiveStage.pending.inj hstage
      cases link with
      | none => exact ⟨rfl, hf⟩
      | some link =>
        obtain ⟨buffers, hread⟩ := receiveOne_eq net requestId address link f
        obtain ⟨buffers', hread'⟩ := receiveOne_eq net' requestId address link f'
        simp only [Receiving.advance, hread, hread', ReceiveStage.withoutDetail]
        cases hf with
        | mk links _ _ relays failures hnetwork =>
          obtain ⟨hsame, hafter⟩ := h.answer link _ _ hnetwork
          exact ⟨congrArg (ReceiveStage.settled (some link)) (faultOfReply_congr hsame address requestId),
            .mk _ _ _ _ _ hafter⟩

/-- Exchanges that are alike in some view stay so during a whole run. -/
theorem Resembles.runAll {St V : Type} {v : St → V}
    {advance : String → St → Forwarder σ → St × Forwarder σ}
    {advance' : String → St → Forwarder τ → St × Forwarder τ}
    (hadvance : ∀ address stage stage' f f', v stage = v stage' → Resembles R f f' →
      v (advance address stage f).1 = v (advance' address stage' f').1 ∧
        Resembles R (advance address stage f).2 (advance' address stage' f').2)
    (schedule : List Nat) {l l' : List (String × St)} (hf : Resembles R f f')
    (hl : l.map (Prod.map id v) = l'.map (Prod.map id v)) :
    (runAll advance schedule (l, f)).1.map (Prod.map id v) =
        (runAll advance' schedule (l', f')).1.map (Prod.map id v) ∧
      Resembles R (runAll advance schedule (l, f)).2 (runAll advance' schedule (l', f')).2 := by
  induction schedule generalizing l l' f f' with
  | nil => exact ⟨hl, hf⟩
  | cons i schedule ih =>
    have hi := congrArg (·[i]?) hl
    simp only [List.getElem?_map] at hi
    simp only [Follower.runAll, List.foldl_cons, stepAt]
    rcases hget : l[i]? with _ | ⟨address, stage⟩ <;> rcases hget' : l'[i]? with _ | ⟨address', stage'⟩ <;>
      rw [hget, hget'] at hi
    · exact ih hf hl
    · cases hi
    · cases hi
    · simp only [Option.map_some, Prod.map_apply, id_eq, Option.some.injEq, Prod.mk.injEq] at hi
      obtain ⟨rfl, hview⟩ := hi
      obtain ⟨hview', hafter⟩ := hadvance address stage stage' f f' hview hf
      apply ih hafter
      rw [List.map_set, List.map_set, hl]
      simp only [Prod.map_apply, hview']

theorem Resembles.relayed (h : net.Alike R net') (hf : Resembles R f f') (schedule : List Nat)
    (frame : ByteArray) (followers : List String) :
    (f.relayed net schedule frame followers).1 = (f'.relayed net' schedule frame followers).1 ∧
      Resembles R (f.relayed net schedule frame followers).2 (f'.relayed net' schedule frame followers).2 := by
  have hrun := Resembles.runAll (v := id) (l := followers.map (·, SendStage.waiting))
    (fun address stage stage' f f' hview hf ↦ by
      obtain rfl : stage = stage' := hview
      exact hf.sending_advance h frame address stage)
    (schedule ++ Sending.rounds followers.length) hf rfl
  simpa only [Forwarder.relayed, Prod.map_id, List.map_id] using hrun

theorem Resembles.receive (h : net.Alike R net') (hf : Resembles R f f') (schedule : List Nat)
    (requestId : Int64) (followers : List String) (slots : List (Option Link)) :
    (f.receive net schedule requestId followers slots).1.map withoutDetail =
        (f'.receive net' schedule requestId followers slots).1.map withoutDetail ∧
      Resembles R (f.receive net schedule requestId followers slots).2
        (f'.receive net' schedule requestId followers slots).2 := by
  have hrun := Resembles.runAll (v := ReceiveStage.withoutDetail) (l := pending followers slots)
    (fun address _ _ _ _ hview hf ↦ hf.receiving_advance h requestId address hview)
    (schedule ++ List.range (pending followers slots).length) hf rfl
  rw [receive_eq_collected, receive_eq_collected]
  refine ⟨?_, hrun.2⟩
  have hviews := congrArg (List.map fun r ↦ Receiving.result r.2) hrun.1
  simpa only [collected, List.map_map, Function.comp_def, Prod.map_snd, result_withoutDetail] using hviews

theorem Resembles.settle (h : net.Alike R net') (hf : Resembles R f f') (ok : Bool) (slot : String × Option Link) :
    Resembles R (Handling.settle net ok f slot) (Handling.settle net' ok f' slot) := by
  cases hf with
  | mk links buffers buffers' relays failures hnetwork =>
    obtain ⟨address, _ | link⟩ := slot
    · exact .mk _ _ _ _ _ hnetwork
    · have hclosed := h.close link _ _ hnetwork
      cases ok with
      | false => exact .mk _ _ _ _ _ hclosed
      | true =>
        simp only [Handling.settle, release, if_true]
        split <;> exact .mk _ _ _ _ _ (by assumption)

theorem Resembles.foldl_settle (h : net.Alike R net') (hf : Resembles R f f') (ok : Bool)
    (slots : List (String × Option Link)) :
    Resembles R (slots.foldl (Handling.settle net ok) f) (slots.foldl (Handling.settle net' ok) f') := by
  induction slots generalizing f f' with
  | nil => exact hf
  | cons slot slots ih => exact ih (hf.settle h ok slot)

end Follower.Forwarder

/-! ## Nodes -/

/-- Two nodes differ in nothing but related storages, related networks and their buffers. -/
inductive Node.Resembles (S : ω → ω' → Prop) (R : σ → τ → Prop) : Node ω σ → Node ω' τ → Prop where
  | mk (collector : Latency.Collector) (shutdown : Shutdown) (received failed : Nat) {w : ω} {w' : ω'}
    {f : Forwarder σ} {f' : Forwarder τ} (hstore : S w w') (hforwarder : Forwarder.Resembles R f f') :
    Resembles S R ⟨w, f, collector, shutdown, received, failed⟩ ⟨w', f', collector, shutdown, received, failed⟩

/-- Two nodes that are alike handle the same packet for the same client. -/
inductive Handling.Resembles (S : ω → ω' → Prop) (R : σ → τ → Prop) :
    Handling ω σ → Handling ω' τ → Prop where
  | mk (request : Request) (client : Sink) {n : Node ω σ} {n' : Node ω' τ} (hnode : n.Resembles S R n') :
    Resembles S R ⟨request, n, client⟩ ⟨request, n', client⟩

namespace Handling

variable {S : ω → ω' → Prop} {R : σ → τ → Prop} {env : Environment ω σ} {env' : Environment ω' τ}
  {x : Handling ω σ} {y : Handling ω' τ} {fault fault' : Fault}

namespace Resembles

theorem request_eq (h : x.Resembles S R y) : x.request = y.request := by
  cases h
  rfl

theorem client_eq (h : x.Resembles S R y) : x.client = y.client := by
  cases h
  rfl

theorem node (h : x.Resembles S R y) : x.node.Resembles S R y.node := by
  cases h
  assumption

theorem forwarder (h : x.Resembles S R y) : Forwarder.Resembles R x.node.forwarder y.node.forwarder := by
  obtain ⟨_, _, hnode⟩ := h
  cases hnode
  assumption

theorem setForwarder (h : x.Resembles S R y) {f : Forwarder σ} {f' : Forwarder τ}
    (hf : Forwarder.Resembles R f f') : (x.setForwarder f).Resembles S R (y.setForwarder f') := by
  obtain ⟨request, client, collector, shutdown, received, failed, hstore, -⟩ := h
  exact .mk _ _ (.mk _ _ _ _ hstore hf)

theorem withRequest (h : x.Resembles S R y) (request : Request) :
    Resembles S R { x with request } { y with request } := by
  obtain ⟨_, client, hnode⟩ := h
  exact .mk request client hnode

theorem answer (h : x.Resembles S R y) (reply : Packet → Packet) :
    (x.answer reply).Resembles S R (y.answer reply) := by
  obtain ⟨request, client, hnode⟩ := h
  exact .mk _ client hnode

/-- A fault that is reported loses its detail. -/
theorem fail (h : x.Resembles S R y) (hfault : fault.withoutDetail = fault'.withoutDetail)
    (action : Wire.Action) : (x.fail action fault).Resembles S R (y.fail action fault') := by
  obtain ⟨request, client, collector, shutdown, received, failed, hstore, hforwarder⟩ := h
  simp only [Handling.fail, Fault.replyFault_congr hfault]
  exact .mk _ _ (.mk _ _ _ _ hstore hforwarder)

theorem failForward (h : x.Resembles S R y) (hfault : fault.withoutDetail = fault'.withoutDetail)
    (action : Wire.Action) : (x.failForward action fault).Resembles S R (y.failForward action fault') := by
  obtain ⟨request, client, collector, shutdown, received, failed, hstore,
    links, buffers, buffers', relays, failures, hnetwork⟩ := h
  refine Resembles.fail ?_ hfault action
  exact .mk _ _ (.mk _ _ _ _ hstore (.mk _ _ _ _ _ hnetwork))

/-- Exchanges that end alike, but for the detail of their faults, leave alike what they were made for. -/
theorem settleExchange (h : x.Resembles S R y) {action : Fault → Wire.Action}
    (haction : ∀ fault fault', fault.withoutDetail = fault'.withoutDetail → action fault = action fault')
    {results results' : List (Option Link × Option Fault)}
    (hresults : results.map withoutDetail = results'.map withoutDetail) {f : Forwarder σ}
    {f' : Forwarder τ} (hf : Forwarder.Resembles R f f') :
    (x.settleExchange action results f).1.map Fault.withoutDetail =
        (y.settleExchange action results' f').1.map Fault.withoutDetail ∧
      (x.settleExchange action results f).2.Resembles S R (y.settleExchange action results' f').2 := by
  have hlinks : results.map Prod.fst = results'.map Prod.fst := by
    have hfst := congrArg (List.map Prod.fst) hresults
    rwa [List.map_map, List.map_map] at hfst
  have hfirst : (firstFault results).map Fault.withoutDetail =
      (firstFault results').map Fault.withoutDetail := by
    rw [← firstFault_withoutDetail, hresults, firstFault_withoutDetail]
  have hexchanged : (x.exchanged results f).Resembles S R (y.exchanged results' f') := by
    rw [exchanged, exchanged, h.request_eq, hlinks]
    exact (h.withRequest _).setForwarder hf
  unfold Handling.settleExchange
  cases hfault : firstFault results with
  | none =>
    rw [hfault, Option.map_none, eq_comm, Option.map_eq_none_iff] at hfirst
    rw [hfirst]
    exact ⟨rfl, hexchanged⟩
  | some fault =>
    rw [hfault, Option.map_some, eq_comm, Option.map_eq_some_iff] at hfirst
    obtain ⟨fault', hfault', hdetail⟩ := hfirst
    rw [hfault']
    dsimp only
    rw [haction fault fault' hdetail.symm]
    exact ⟨congrArg some hdetail.symm, hexchanged.failForward hdetail.symm _⟩

theorem resolved (h : x.Resembles S R y) (addresses : List String) :
    (x.resolved addresses).Resembles S R (y.resolved addresses) := by
  obtain ⟨request, client, hnode⟩ := h
  exact .mk _ client hnode

theorem send (henv : env.Alike S R env') (h : x.Resembles S R y) (addresses : List String) :
    ((x.resolved addresses).send env).1.map Fault.withoutDetail =
        ((y.resolved addresses).send env').1.map Fault.withoutDetail ∧
      ((x.resolved addresses).send env).2.Resembles S R ((y.resolved addresses).send env').2 := by
  obtain ⟨hrelays, hf⟩ := h.forwarder.relayed henv.network env.sendSchedule
    (relayFrame x.request.packet) addresses
  rw [send_resolved, send_resolved, ← h.request_eq, ← henv.sendSchedule]
  dsimp only
  rw [← hrelays]
  exact (h.resolved addresses).settleExchange (fun _ _ _ ↦ rfl) rfl hf

theorem receive (henv : env.Alike S R env') (h : x.Resembles S R y) :
    (x.receive env).1.map Fault.withoutDetail = (y.receive env').1.map Fault.withoutDetail ∧
      (x.receive env).2.Resembles S R (y.receive env').2 := by
  by_cases hnone : x.request.followers.isEmpty
  · rw [Handling.receive, Handling.receive, ← h.request_eq, if_pos hnone, if_pos hnone]
    exact ⟨rfl, h⟩
  · obtain ⟨hresults, hf⟩ := h.forwarder.receive henv.network env.receiveSchedule
      x.request.packet.header.requestId x.request.followers x.request.slots
    have hnone' : ¬ y.request.followers.isEmpty := h.request_eq ▸ hnone
    rw [receive_of_followers env hnone, receive_of_followers env' hnone', ← h.request_eq,
      ← henv.receiveSchedule]
    exact h.settleExchange (fun _ _ ↦ Fault.receiveAction_congr) hresults hf

theorem finish (henv : env.Alike S R env') (h : x.Resembles S R y) (ok : Bool) :
    (x.finish env ok).Resembles S R (y.finish env' ok) := by
  have hf := h.forwarder.foldl_settle henv.network ok (x.request.followers.zip x.request.slots)
  rw [Handling.finish, Handling.finish, ← h.request_eq]
  exact (h.withRequest _).setForwarder hf

theorem perform (henv : env.Alike S R env') (h : x.Resembles S R y) :
    (x.perform env).1.mapError Fault.withoutDetail = (y.perform env').1.mapError Fault.withoutDetail ∧
      (x.perform env).2.Resembles S R (y.perform env').2 := by
  obtain ⟨request, client, collector, shutdown, received, failed, hstore, hforwarder⟩ := h
  unfold Handling.perform
  cases operationOf request.packet with
  | error fault => exact ⟨rfl, .mk _ _ (.mk _ _ _ _ hstore hforwarder)⟩
  | ok op =>
    have hanswer := henv.engine.answer_eq op _ _ hstore
    have hkeeps := henv.engine.keeps op _ _ hstore
    dsimp only
    generalize env.engine op _ = applied, env'.engine op _ = applied' at hanswer hkeeps ⊢
    obtain ⟨fault | a, w⟩ := applied <;> obtain ⟨fault' | a', w'⟩ := applied'
    · have hfault : fault.withoutDetail = fault'.withoutDetail := Except.error.inj hanswer
      have hmessage : (Fault.storage fault).withoutDetail = (Fault.storage fault').withoutDetail :=
        congrArg Fault.storage hfault
      exact ⟨congrArg Except.error hmessage, .mk _ _ (.mk _ _ _ _ hkeeps hforwarder)⟩
    · cases hanswer
    · cases hanswer
    · obtain rfl : a = a' := Except.ok.inj hanswer
      exact ⟨rfl, .mk _ _ (.mk _ _ _ _ hkeeps hforwarder)⟩

theorem stream (h : x.Resembles S R y) (now : Int64) (b : ByteArray) :
    (x.stream now b).1 = (y.stream now b).1 ∧ (x.stream now b).2.Resembles S R (y.stream now b).2 := by
  obtain ⟨request, client, hnode⟩ := h
  unfold Handling.stream
  dsimp only
  rcases streamTo now request.packet.header request.packet.header.offset client (streamPieces b) with
    ⟨_ | fault, client⟩ <;> exact ⟨rfl, .mk _ _ hnode⟩

/-- What is applied to storages that do alike is answered alike. -/
theorem operate (henv : env.Alike S R env') (h : x.Resembles S R y) :
    (x.operate env).1 = (y.operate env').1 ∧ (x.operate env).2.Resembles S R (y.operate env').2 := by
  obtain ⟨hanswer, hafter⟩ := h.perform henv
  rcases hx : x.perform env with ⟨fault | a, x'⟩ <;> rcases hy : y.perform env' with ⟨fault' | a', y'⟩ <;>
    rw [hx, hy] at hanswer hafter
  · rw [operate_of_error hx, operate_of_error hy]
    exact ⟨rfl, hafter.fail (Except.error.inj hanswer) .operate⟩
  · cases hanswer
  · cases hanswer
  · obtain rfl : a = a' := Except.ok.inj hanswer
    have hrequest : x'.request = y'.request := hafter.request_eq
    cases hstreams : x'.request.packet.header.opcode.streamsReply with
    | true =>
      rw [operate_of_streamed hx hstreams, operate_of_streamed hy (hrequest ▸ hstreams), ← henv.now]
      exact hafter.stream env.now a.body
    | false =>
      rw [operate_of_ok hx hstreams, operate_of_ok hy (hrequest ▸ hstreams)]
      exact ⟨rfl, hafter.answer _⟩

theorem isNone_eq {fault fault' : Option Fault}
    (h : fault.map Fault.withoutDetail = fault'.map Fault.withoutDetail) :
    fault.isNone = fault'.isNone := by
  rw [← Option.isNone_map (f := Fault.withoutDetail), h, Option.isNone_map]

theorem conclude (henv : env.Alike S R env') (h : x.Resembles S R y) (fault : Option Fault) :
    (x.conclude env fault).Resembles S R (y.conclude env' fault) := by
  obtain ⟨hfault, hreceived⟩ := h.receive henv
  rw [Handling.conclude, Handling.conclude, ← h.request_eq]
  split
  · dsimp only
    rw [← isNone_eq hfault]
    exact hreceived.finish henv _
  · exact h.finish henv false

theorem processResolved (henv : env.Alike S R env') (h : x.Resembles S R y) (addresses : List String) :
    ((x.resolved addresses).processResolved env).1 = ((y.resolved addresses).processResolved env').1 ∧
      ((x.resolved addresses).processResolved env).2.Resembles S R
        ((y.resolved addresses).processResolved env').2 := by
  have hresolved := h.resolved addresses
  cases hforward : (x.resolved addresses).request.isForward with
  | false =>
    rw [processResolved_of_local hforward, processResolved_of_local (hresolved.request_eq ▸ hforward)]
    exact hresolved.operate henv
  | true =>
    have hforward' : (y.resolved addresses).request.isForward = true := hresolved.request_eq ▸ hforward
    obtain ⟨hfault, hsent⟩ := h.send henv addresses
    rcases hx : (x.resolved addresses).send env with ⟨_ | fault, x'⟩ <;>
      rcases hy : (y.resolved addresses).send env' with ⟨_ | fault', y'⟩ <;> rw [hx, hy] at hfault hsent
    · obtain ⟨hleft, hoperated⟩ := hsent.operate henv
      rw [processResolved_of_sent hforward hx, processResolved_of_sent hforward' hy, ← hleft]
      exact ⟨rfl, hoperated.conclude henv _⟩
    · cases hfault
    · cases hfault
    · rw [processResolved_of_send_fault hforward hx, processResolved_of_send_fault hforward' hy]
      exact ⟨rfl, hsent.finish henv false⟩

/-- Nodes that are alike handle every packet alike. -/
theorem process (henv : env.Alike S R env') (h : x.Resembles S R y) :
    (x.process env).1 = (y.process env').1 ∧ (x.process env).2.Resembles S R (y.process env').2 := by
  cases hm : x.request.isMasterCommand with
  | true =>
    rw [process_of_isMasterCommand hm, process_of_isMasterCommand (h.request_eq ▸ hm)]
    exact h.operate henv
  | false =>
    have hm' : y.request.isMasterCommand = false := h.request_eq ▸ hm
    cases hp : Request.parseFollowers x.request.packet with
    | error fault =>
      have hp' : Request.parseFollowers y.request.packet = .error fault := h.request_eq ▸ hp
      rw [process_of_parse_error hm hp, process_of_parse_error hm' hp']
      exact ⟨rfl, h.fail rfl .prepare⟩
    | ok addresses =>
      have hp' : Request.parseFollowers y.request.packet = .ok addresses := h.request_eq ▸ hp
      rw [process_of_parse_ok hm hp, process_of_parse_ok hm' hp']
      exact h.processResolved henv addresses

/-! ## Around the handling -/

theorem finishNode (h : x.Resembles S R y) :
    Resembles S R { x with node := x.node.finish } { y with node := y.node.finish } := by
  obtain ⟨request, client, collector, shutdown, received, failed, hstore, hforwarder⟩ := h
  exact .mk _ _ (.mk _ _ _ _ hstore hforwarder)

theorem failWrite (h : x.Resembles S R y) (fault : Option Fault) :
    Resembles S R (fault.elim x (x.fail .writeToClient ·)) (fault.elim y (y.fail .writeToClient ·)) := by
  cases fault with
  | none => exact h
  | some fault => exact h.fail rfl .writeToClient

theorem startTimer (h : x.Resembles S R y) (cluster : String) :
    (x.startTimer cluster).Resembles S R (y.startTimer cluster) := by
  obtain ⟨request, client, collector, shutdown, received, failed, hstore, hforwarder⟩ := h
  exact .mk _ _ (.mk _ _ _ _ hstore hforwarder)

theorem stopTimer (h : x.Resembles S R y) (elapsed : Latency.Duration) :
    (x.stopTimer elapsed).Resembles S R (y.stopTimer elapsed) := by
  obtain ⟨request, client, collector, shutdown, received, failed, hstore, hforwarder⟩ := h
  unfold Handling.stopTimer
  dsimp only
  split <;> exact .mk _ _ (.mk _ _ _ _ hstore hforwarder)

theorem reply (h : x.Resembles S R y) :
    x.reply.1 = y.reply.1 ∧ x.reply.2.Resembles S R y.reply.2 := by
  obtain ⟨request, client, hnode⟩ := h
  unfold Handling.reply
  dsimp only
  split
  · split <;> exact ⟨rfl, .mk _ _ hnode⟩
  · exact ⟨rfl, .mk _ _ hnode⟩

end Resembles

end Handling

/-! ## Connections -/

namespace Node

variable {S : ω → ω' → Prop} {R : σ → τ → Prop} {env : Environment ω σ} {env' : Environment ω' τ}
  {n : Node ω σ} {n' : Node ω' τ}

theorem Resembles.store (h : n.Resembles S R n') : S n.store n'.store := by
  cases h
  assumption

theorem Resembles.links_eq (h : n.Resembles S R n') : n.forwarder.links = n'.forwarder.links := by
  obtain ⟨_, _, _, _, _, hforwarder⟩ := h
  cases hforwarder
  rfl

namespace Resembles

theorem setBuffers (h : n.Resembles S R n') (buffers buffers' : BufferPool) :
    (n.setBuffers buffers).Resembles S R (n'.setBuffers buffers') := by
  obtain ⟨collector, shutdown, received, failed, hstore, links, _, _, relays, failures, hnetwork⟩ := h
  exact .mk _ _ _ _ hstore (.mk _ _ _ _ _ hnetwork)

theorem begin (h : n.Resembles S R n') : n.begin.Resembles S R n'.begin := by
  obtain ⟨collector, shutdown, received, failed, hstore, hforwarder⟩ := h
  exact .mk _ _ _ _ hstore hforwarder

/-- Nodes that are alike write the same to the client of a packet, and stay alike. -/
theorem handle (henv : env.Alike S R env') (h : n.Resembles S R n') (p : Packet) (client : Sink) :
    (Node.handle env p n client).1 = (Node.handle env' p n' client).1 ∧
      (Node.handle env p n client).2.1.Resembles S R (Node.handle env' p n' client).2.1 ∧
      (Node.handle env p n client).2.2 = (Node.handle env' p n' client).2.2 := by
  have hstart : Handling.Resembles S R ⟨.ofPacket p, n.begin, client⟩ ⟨.ofPacket p, n'.begin, client⟩ :=
    .mk _ _ h.begin
  obtain ⟨hleft, hprocessed⟩ := (hstart.startTimer env.cluster).process henv
  have hstopped := hprocessed.stopTimer env.elapsed
  unfold Node.handle
  dsimp only
  rw [← henv.cluster, ← henv.elapsed, ← hleft]
  generalize (Handling.process env _).1 = left
  generalize Handling.stopTimer env.elapsed (Handling.process env _).2 = x,
    Handling.stopTimer env.elapsed (Handling.process env' _).2 = y at hstopped ⊢
  cases left with
  | none =>
    obtain ⟨hfault, hreplied⟩ := hstopped.reply
    have hended := hreplied.finishNode.failWrite x.reply.1
    dsimp only
    rw [← hfault]
    exact ⟨rfl, hended.node.setBuffers _ _, hended.client_eq⟩
  | some fault =>
    have hended := hstopped.finishNode.failWrite (some fault)
    exact ⟨rfl, hended.node.setBuffers _ _, hended.client_eq⟩

/-- What one node does with a packet a node that is alike does, too. -/
theorem exists_handle_eq (henv : env.Alike S R env') (h : n.Resembles S R n') {p : Wire.Packet}
    {client k : Sink} {fault : Option Fault} {m : Node ω σ}
    (hh : Node.handle env p n client = (fault, m, k)) :
    ∃ m', m.Resembles S R m' ∧ Node.handle env' p n' client = (fault, m', k) := by
  obtain ⟨hfault, hnode, hclient⟩ := h.handle henv p client
  rw [hh] at hfault hnode hclient
  exact ⟨_, hnode, Prod.ext hfault.symm (Prod.ext rfl hclient.symm)⟩

/-- Nodes that are alike serve every connection alike. -/
theorem serve (henv : env.Alike S R env') (h : n.Resembles S R n') (s : Source) (client : Sink) :
    (Node.serve env n s client).1 = (Node.serve env' n' s client).1 ∧
      (Node.serve env n s client).2.1.Resembles S R (Node.serve env' n' s client).2.1 ∧
      (Node.serve env n s client).2.2 = (Node.serve env' n' s client).2.2 := by
  fun_induction Node.serve env n s client generalizing n' with
  | case1 n s client fault buffers rest hd =>
    obtain ⟨buffers', hd'⟩ := Packet.exists_decode_eq n'.forwarder.buffers hd
    rw [serve_of_error hd']
    exact ⟨rfl, h.setBuffers buffers buffers', rfl⟩
  | case2 n s client p buffers rest hd fault m k hh =>
    obtain ⟨buffers', hd'⟩ := Packet.exists_decode_eq n'.forwarder.buffers hd
    obtain ⟨m', hnode, hh'⟩ := (h.setBuffers buffers buffers').exists_handle_eq henv hh
    rw [serve_of_unwritten hd' hh']
    exact ⟨rfl, hnode, rfl⟩
  | case3 n s client p buffers rest hd m k hh ih =>
    obtain ⟨buffers', hd'⟩ := Packet.exists_decode_eq n'.forwarder.buffers hd
    obtain ⟨m', hnode, hh'⟩ := (h.setBuffers buffers buffers').exists_handle_eq henv hh
    rw [serve_of_ok hd' hh']
    exact ih hnode

end Resembles

end Node

end ReplicaChain
