import ReplicaChain.Proofs.Node.Fanout

/-!
# Networks that project to one another

A network may keep more in its state than another and still behave like it.  Then a node that talks
to the one does what it does when it talks to the other, and only the states of the networks differ.
So a network can be made to keep a record of everything that happens on it, and whatever is shown of
a node on a recording network is true of the node on the network itself.
-/

namespace ReplicaChain

open Follower

variable {ω σ τ : Type}

/-- The network `fine` behaves like `coarse`, on states of which `φ` forgets something. -/
structure Network.Projects (φ : τ → σ) (fine : Network τ) (coarse : Network σ) : Prop where
  dial : ∀ link t, coarse.dial link (φ t) = ((fine.dial link t).1, φ (fine.dial link t).2)
  await : ∀ link t, coarse.await link (φ t) = ((fine.await link t).1, φ (fine.await link t).2)
  write : ∀ link b t, coarse.write link b (φ t) = ((fine.write link b t).1, φ (fine.write link b t).2)
  incoming : ∀ link t,
    coarse.incoming link (φ t) = ((fine.incoming link t).1, φ (fine.incoming link t).2)
  leave : ∀ link rest t, coarse.leave link rest (φ t) = φ (fine.leave link rest t)
  close : ∀ link t, coarse.close link (φ t) = φ (fine.close link t)

/-! ## Forwarders -/

namespace Follower.Forwarder

def map (φ : τ → σ) (f : Forwarder τ) : Forwarder σ where
  links := f.links
  buffers := f.buffers
  relays := f.relays
  failures := f.failures
  network := φ f.network

variable {φ : τ → σ} {fine : Network τ} {coarse : Network σ}

theorem conclude_map (link : Link) (a : Attempt) (f : Forwarder τ) :
    (f.map φ).conclude link a = ((f.conclude link a).1, (f.conclude link a).2.map φ) := by
  cases a <;> rfl

theorem awaitDial_map (h : Network.Projects φ fine coarse) (link : Link) (f : Forwarder τ) :
    (f.map φ).awaitDial coarse link =
      ((f.awaitDial fine link).1, (f.awaitDial fine link).2.map φ) := by
  have ha : coarse.await link (f.map φ).network =
      ((fine.await link f.network).1, φ (fine.await link f.network).2) := h.await link f.network
  simp only [awaitDial, ha]
  exact conclude_map link _ { f with network := (fine.await link f.network).2 }

theorem sending_advance_map (h : Network.Projects φ fine coarse) (frame : ByteArray)
    (address : String) (stage : SendStage) (f : Forwarder τ) :
    Sending.advance coarse frame address stage (f.map φ) =
      ((Sending.advance fine frame address stage f).1,
        (Sending.advance fine frame address stage f).2.map φ) := by
  cases stage with
  | waiting =>
    have hlinks : (f.map φ).links = f.links := rfl
    simp only [Sending.advance, hlinks]
    rcases f.links.request address with ⟨link | link | fault, links⟩
    · rfl
    · have hd : coarse.dial link (f.map φ).network =
          ((fine.dial link f.network).1, φ (fine.dial link f.network).2) := h.dial link f.network
      simp only [hd]
      rcases fine.dial link f.network with ⟨_ | a, network⟩
      · rfl
      · cases a <;> rfl
    · rfl
  | dialing link =>
    simp only [Sending.advance, awaitDial_map h]
  | connected link =>
    have hw : coarse.write link frame (f.map φ).network =
        ((fine.write link frame f.network).1, φ (fine.write link frame f.network).2) :=
      h.write link frame f.network
    simp only [Sending.advance, hw]
    rcases fine.write link frame f.network with ⟨_ | _, network⟩ <;> rfl
  | settled link fault => rfl

theorem receiveOne_map (h : Network.Projects φ fine coarse) (requestId : Int64) (address : String)
    (link : Link) (f : Forwarder τ) :
    (f.map φ).receiveOne coarse requestId address link =
      ((f.receiveOne fine requestId address link).1,
        (f.receiveOne fine requestId address link).2.map φ) := by
  have hi : coarse.incoming link (f.map φ).network =
      ((fine.incoming link f.network).1, φ (fine.incoming link f.network).2) :=
    h.incoming link f.network
  have hbuffers : (f.map φ).buffers = f.buffers := rfl
  simp only [receiveOne, hi, hbuffers, h.leave]
  rcases Wire.Packet.decode f.buffers (fine.incoming link f.network).1 with ⟨_ | _, _, _⟩ <;> rfl

theorem receiving_advance_map (h : Network.Projects φ fine coarse) (requestId : Int64)
    (address : String) (stage : ReceiveStage) (f : Forwarder τ) :
    Receiving.advance coarse requestId address stage (f.map φ) =
      ((Receiving.advance fine requestId address stage f).1,
        (Receiving.advance fine requestId address stage f).2.map φ) := by
  rcases stage with (_ | link) | _
  · rfl
  · simp only [Receiving.advance, receiveOne_map h]
  · rfl

theorem runAll_map {St : Type} {fineAdvance : String → St → Forwarder τ → St × Forwarder τ}
    {coarseAdvance : String → St → Forwarder σ → St × Forwarder σ}
    (h : ∀ address stage f, coarseAdvance address stage (map φ f) =
      ((fineAdvance address stage f).1, (fineAdvance address stage f).2.map φ))
    (schedule : List Nat) (l : List (String × St)) (f : Forwarder τ) :
    runAll coarseAdvance schedule (l, f.map φ) =
      ((runAll fineAdvance schedule (l, f)).1, (runAll fineAdvance schedule (l, f)).2.map φ) := by
  induction schedule generalizing l f with
  | nil => rfl
  | cons i schedule ih =>
    have hstep : stepAt coarseAdvance (l, f.map φ) i =
        ((stepAt fineAdvance (l, f) i).1, (stepAt fineAdvance (l, f) i).2.map φ) := by
      unfold stepAt
      dsimp only
      split
      · rfl
      · simp only [h]
    simp only [runAll, List.foldl_cons, hstep]
    exact ih _ _

theorem receive_map (h : Network.Projects φ fine coarse) (schedule : List Nat) (requestId : Int64)
    (followers : List String) (slots : List (Option Link)) (f : Forwarder τ) :
    (f.map φ).receive coarse schedule requestId followers slots =
      ((f.receive fine schedule requestId followers slots).1,
        (f.receive fine schedule requestId followers slots).2.map φ) := by
  simp only [receive_eq_collected, collected, runAll_map (receiving_advance_map h requestId)]

theorem closeAll_map (h : Network.Projects φ fine coarse) (links : List Link) (f : Forwarder τ) :
    (f.map φ).closeAll coarse links = (f.closeAll fine links).map φ := by
  have hnetwork : links.foldl (fun s link ↦ coarse.close link s) (φ f.network) =
      φ (links.foldl (fun t link ↦ fine.close link t) f.network) :=
    List.foldl_hom φ fun t link ↦ h.close link t
  simp only [closeAll, map, hnetwork]

end Follower.Forwarder

/-! ## Nodes -/

def Environment.withNetwork (network : Network τ) (env : Environment ω σ) : Environment ω τ where
  cluster := env.cluster
  engine := env.engine
  network
  now := env.now
  elapsed := env.elapsed
  sendSchedule := env.sendSchedule
  receiveSchedule := env.receiveSchedule

def Node.map (φ : τ → σ) (n : Node ω τ) : Node ω σ where
  store := n.store
  forwarder := n.forwarder.map φ
  collector := n.collector
  shutdown := n.shutdown
  packetsReceived := n.packetsReceived
  packetsFailed := n.packetsFailed

namespace Handling

def map (φ : τ → σ) (x : Handling ω τ) : Handling ω σ :=
  ⟨x.request, x.node.map φ, x.client⟩

variable {φ : τ → σ} {fine : Network τ} {env : Environment ω σ}

theorem settleExchange_map (action : Fault → Wire.Action)
    (results : List (Option Link × Option Fault)) (f : Forwarder τ) (x : Handling ω τ) :
    (x.map φ).settleExchange action results (f.map φ) =
      ((x.settleExchange action results f).1, (x.settleExchange action results f).2.map φ) := by
  unfold settleExchange
  rcases firstFault results with _ | fault <;> rfl

theorem send_map_of_slots (h : Network.Projects φ fine env.network) (x : Handling ω τ)
    (hslots : x.request.slots.length = x.request.followers.length) :
    (x.map φ).send env =
      ((x.send (env.withNetwork fine)).1, (x.send (env.withNetwork fine)).2.map φ) := by
  rw [send_of_slots env (x.map φ) hslots, send_of_slots _ x hslots]
  have hrun : (x.map φ).node.forwarder.relayed env.network env.sendSchedule
      (relayFrame (x.map φ).request.packet) (x.map φ).request.followers =
        ((x.node.forwarder.relayed fine env.sendSchedule (relayFrame x.request.packet)
          x.request.followers).1,
        (x.node.forwarder.relayed fine env.sendSchedule (relayFrame x.request.packet)
          x.request.followers).2.map φ) :=
    Forwarder.runAll_map (Forwarder.sending_advance_map h _) _ _ _
  simp only [hrun, Forwarder.closeAll_map h]
  exact settleExchange_map _ _ _ x

theorem send_map (h : Network.Projects φ fine env.network) (addresses : List String)
    (x : Handling ω τ) :
    ((x.map φ).resolved addresses).send env =
      (((x.resolved addresses).send (env.withNetwork fine)).1,
        ((x.resolved addresses).send (env.withNetwork fine)).2.map φ) :=
  send_map_of_slots h (x.resolved addresses) (List.length_map _)

theorem receive_map (h : Network.Projects φ fine env.network) (x : Handling ω τ) :
    (x.map φ).receive env =
      ((x.receive (env.withNetwork fine)).1, (x.receive (env.withNetwork fine)).2.map φ) := by
  by_cases hf : x.request.followers.isEmpty
  · rw [receive, receive, if_pos hf, if_pos (show (x.map φ).request.followers.isEmpty from hf)]
  · rw [receive, receive, if_neg hf, if_neg (show ¬ (x.map φ).request.followers.isEmpty from hf)]
    let received := x.node.forwarder.receive fine env.receiveSchedule
      x.request.packet.header.requestId x.request.followers x.request.slots
    have hr : (x.map φ).node.forwarder.receive env.network env.receiveSchedule
        (x.map φ).request.packet.header.requestId (x.map φ).request.followers
        (x.map φ).request.slots = (received.1, received.2.map φ) := Forwarder.receive_map h _ _ _ _ _
    simp only [hr]
    rcases hfault : firstFault received.1 with _ | fault <;>
    · simp only [Environment.withNetwork, received] at hfault ⊢
      simp only [hfault]
      rfl

theorem foldl_settle_map (h : Network.Projects φ fine env.network) (ok : Bool)
    (links : List (String × Option Link)) (f : Forwarder τ) :
    links.foldl (settle env.network ok) (f.map φ) = (links.foldl (settle fine ok) f).map φ := by
  induction links generalizing f with
  | nil => rfl
  | cons l links ih =>
    have hl : settle env.network ok (f.map φ) l = (settle fine ok f l).map φ := by
      obtain ⟨address, _ | link⟩ := l
      · rfl
      · have hc := h.close link f.network
        cases ok with
        | false =>
          simp only [settle, Forwarder.destroy, Forwarder.map, Bool.false_eq_true, if_false, hc]
        | true =>
          simp only [settle, Forwarder.release, Forwarder.map, if_true, hc]
          split <;> rfl
    rw [List.foldl_cons, hl, ih, List.foldl_cons]

theorem finish_map (h : Network.Projects φ fine env.network) (ok : Bool) (x : Handling ω τ) :
    (x.map φ).finish env ok = (x.finish (env.withNetwork fine) ok).map φ := by
  have hf := foldl_settle_map h ok (x.request.followers.zip x.request.slots) x.node.forwarder
  simp only [finish, setForwarder, map, Node.map, Environment.withNetwork] at hf ⊢
  rw [hf]

theorem perform_map (fine : Network τ) (x : Handling ω τ) :
    (x.map φ).perform env =
      ((x.perform (env.withNetwork fine)).1, (x.perform (env.withNetwork fine)).2.map φ) := by
  have hstore : (x.map φ).node.store = x.node.store := rfl
  have hrequest : (x.map φ).request = x.request := rfl
  have hengine : (env.withNetwork fine).engine = env.engine := rfl
  simp only [perform, hstore, hrequest, hengine]
  rcases operationOf x.request.packet with fault | op
  · rfl
  · dsimp only
    rcases env.engine op x.node.store with ⟨fault | a, store⟩ <;> rfl

theorem stream_map (now : Int64) (b : ByteArray) (x : Handling ω τ) :
    (x.map φ).stream now b = ((x.stream now b).1, (x.stream now b).2.map φ) := by
  have hrequest : (x.map φ).request = x.request := rfl
  have hclient : (x.map φ).client = x.client := rfl
  simp only [stream, hrequest, hclient]
  rcases streamTo now x.request.packet.header x.request.packet.header.offset x.client
    (streamPieces b) with ⟨_ | fault, client⟩ <;> rfl

theorem operate_map (fine : Network τ) (x : Handling ω τ) :
    (x.map φ).operate env =
      ((x.operate (env.withNetwork fine)).1, (x.operate (env.withNetwork fine)).2.map φ) := by
  have hp : (x.map φ).perform env = _ := perform_map fine x
  rcases hx : x.perform (env.withNetwork fine) with ⟨fault | a, y⟩ <;> rw [hx] at hp
  · rw [operate_of_error hp, operate_of_error hx]
    rfl
  · rcases hs : y.request.packet.header.opcode.streamsReply with _ | _
    · rw [operate_of_ok hp hs, operate_of_ok hx hs]
      rfl
    · rw [operate_of_streamed hp hs, operate_of_streamed hx hs, stream_map]
      rfl

theorem conclude_map (h : Network.Projects φ fine env.network) (fault : Option Fault)
    (x : Handling ω τ) :
    (x.map φ).conclude env fault = (x.conclude (env.withNetwork fine) fault).map φ := by
  have hrequest : (x.map φ).request = x.request := rfl
  simp only [conclude, hrequest, receive_map h]
  split
  · exact finish_map h _ _
  · exact finish_map h _ _

theorem processResolved_map (h : Network.Projects φ fine env.network) (addresses : List String)
    (x : Handling ω τ) :
    ((x.map φ).resolved addresses).processResolved env =
      (((x.resolved addresses).processResolved (env.withNetwork fine)).1,
        ((x.resolved addresses).processResolved (env.withNetwork fine)).2.map φ) := by
  have hforward : ((x.map φ).resolved addresses).request.isForward =
      (x.resolved addresses).request.isForward := rfl
  simp only [processResolved, hforward, send_map h]
  split
  · rcases (x.resolved addresses).send (env.withNetwork fine) with ⟨_ | fault, y⟩
    · simp only [operate_map fine, conclude_map h]
    · simp only [finish_map h]
  · exact operate_map fine (x.resolved addresses)

/-- A node does on a network what it does on every network that projects to it. -/
theorem process_map (h : Network.Projects φ fine env.network) (x : Handling ω τ) :
    (x.map φ).process env =
      ((x.process (env.withNetwork fine)).1, (x.process (env.withNetwork fine)).2.map φ) := by
  have hrequest : (x.map φ).request = x.request := rfl
  by_cases hm : x.request.isMasterCommand = true
  · rw [process_of_isMasterCommand hm,
      process_of_isMasterCommand (show (x.map φ).request.isMasterCommand = true from hm),
      operate_map fine]
  simp only [Bool.not_eq_true] at hm
  rcases hp : Request.parseFollowers x.request.packet with fault | addresses
  · rw [process_of_parse_error hm hp,
      process_of_parse_error (show (x.map φ).request.isMasterCommand = false from hm) hp]
    rfl
  · rw [process_of_parse_ok hm hp,
      process_of_parse_ok (show (x.map φ).request.isMasterCommand = false from hm) hp]
    exact processResolved_map h addresses x

end Handling

end ReplicaChain
