import ReplicaChain.Proofs.Node.Application
import ReplicaChain.Proofs.Node.Fanout

/-!
# Handling a packet act by act

While a node waits for one follower it can go on with another, and with other packets.  What it does
with a relayed packet is cut here into acts between which anything else can happen: an exchange with
one follower goes on, or all exchanges have ended and the packet is applied, or answered.  Acts that
follow each other without interruption are what `Handling.process` does, and it does nothing else.
-/

namespace ReplicaChain

open Follower

variable {ω σ : Type}

namespace Follower

/-- A relay has come to its end. -/
def SendStage.isSettled : SendStage → Bool
  | .settled _ _ => true
  | _ => false

def ReceiveStage.isSettled : ReceiveStage → Bool
  | .settled _ _ => true
  | .pending _ => false

/-- Exchanges that came to their end stay as they are. -/
theorem runAll_of_fixed {St : Type} {advance : String → St → Forwarder σ → St × Forwarder σ}
    {l : List (String × St)} (f : Forwarder σ)
    (hl : ∀ address stage, (address, stage) ∈ l → advance address stage f = (stage, f))
    (schedule : List Nat) : runAll advance schedule (l, f) = (l, f) := by
  have hstep (i : Nat) : stepAt advance (l, f) i = (l, f) := by
    unfold stepAt
    split
    · rfl
    · rename_i address stage hi
      have hfixed := hl address stage (List.mem_of_getElem? hi)
      simp only [hfixed, Prod.mk.injEq, and_true]
      exact set_of_getElem?_eq hi
  induction schedule with
  | nil => rfl
  | cons i schedule ih =>
    rw [runAll, List.foldl_cons, hstep]
    exact ih

variable {net : Network σ} {frame : ByteArray} {f g : Forwarder σ} {followers : List String}
  {schedule : List Nat}

/-- Once a schedule brought all relays to their end, nothing is left to be done in turns. -/
theorem Forwarder.relayed_of_settled {relays : List (String × SendStage)}
    (h : runAll (Sending.advance net frame) schedule (followers.map (·, .waiting), f) = (relays, g))
    (hsettled : relays.all (·.2.isSettled)) :
    f.relayed net schedule frame followers = (relays, g) := by
  have hfixed : ∀ address stage, (address, stage) ∈ relays →
      Sending.advance net frame address stage g = (stage, g) := by
    intro address stage hr
    have := List.all_eq_true.mp hsettled _ hr
    cases stage with
    | settled link fault => rfl
    | waiting | dialing | connected => cases this
  rw [relayed, runAll, List.foldl_append]
  change runAll _ _ (runAll _ schedule _) = _
  rw [h, runAll_of_fixed g hfixed]

/-- Once a schedule collected all replies, nothing is left to be done in turn. -/
theorem Forwarder.collected_of_settled {requestId : Int64} {slots : List (Option Link)}
    {replies : List (String × ReceiveStage)}
    (h : runAll (Receiving.advance net requestId) schedule (pending followers slots, f) =
      (replies, g))
    (hsettled : replies.all (·.2.isSettled)) :
    f.collected net schedule requestId followers slots = (replies, g) := by
  have hfixed : ∀ address stage, (address, stage) ∈ replies →
      Receiving.advance net requestId address stage g = (stage, g) := by
    intro address stage hr
    have := List.all_eq_true.mp hsettled _ hr
    cases stage with
    | settled link fault => rfl
    | pending link => cases this
  rw [collected, runAll, List.foldl_append]
  change runAll _ _ (runAll _ schedule _) = _
  rw [h, runAll_of_fixed g hfixed]

end Follower

namespace Handling

/-! ## Acts -/

inductive Stage where
  | relaying (relays : List (String × SendStage))
  | collecting (replies : List (String × ReceiveStage))
  /-- The reply is made, and the links are to be kept or not. -/
  | leaving (ok : Bool)
  deriving DecidableEq

inductive Act where
  /-- It goes on with one of the exchanges. -/
  | exchange (i : Nat)
  /-- It leaves the exchanges behind, all of which have ended. -/
  | proceed
  deriving DecidableEq, Repr

/-- What follows when all relays have ended: unless one has failed the packet is applied, and if that
succeeded the replies are to be collected. -/
def sent (env : Environment ω σ) (relays : List (String × SendStage)) (x : Handling ω σ) :
    Stage × Handling ω σ :=
  match x.settleExchange (fun _ ↦ .sendToFollowers) (relays.map (Sending.result ·.2))
      x.node.forwarder with
  | (some _, x) => (.leaving false, x)
  | (none, x) =>
    let operated := x.operate env
    if operated.1.isNone && operated.2.request.isOk then
      (.collecting (Forwarder.pending operated.2.request.followers operated.2.request.slots),
        operated.2)
    else (.leaving false, operated.2)

def received (replies : List (String × ReceiveStage)) (x : Handling ω σ) : Stage × Handling ω σ :=
  let settled := x.settleExchange receiveAction (replies.map (Receiving.result ·.2))
    x.node.forwarder
  (.leaving settled.1.isNone, settled.2)

def act (env : Environment ω σ) (s : Stage × Handling ω σ) (a : Act) :
    Option (Stage × Handling ω σ) :=
  let x := s.2
  match s.1, a with
  | .relaying relays, .exchange i =>
    let stepped := stepAt (Sending.advance env.network (relayFrame x.request.packet))
      (relays, x.node.forwarder) i
    some (.relaying stepped.1, x.setForwarder stepped.2)
  | .relaying relays, .proceed =>
    if relays.all (·.2.isSettled) then some (x.sent env relays) else none
  | .collecting replies, .exchange i =>
    let stepped := stepAt (Receiving.advance env.network x.request.packet.header.requestId)
      (replies, x.node.forwarder) i
    some (.collecting stepped.1, x.setForwarder stepped.2)
  | .collecting replies, .proceed =>
    if replies.all (·.2.isSettled) then some (x.received replies) else none
  | .leaving _, _ => none

/-- One act after another, without anything between them. -/
def follow (env : Environment ω σ) : List Act → Stage × Handling ω σ → Option (Stage × Handling ω σ)
  | [], s => some s
  | a :: acts, s => (act env s a).bind (follow env acts)

variable {env : Environment ω σ} {x y : Handling ω σ} {addresses : List String}
  {relays : List (String × SendStage)} {replies : List (String × ReceiveStage)}

/-- When all relays have ended with a link and without a fault, the packet is applied. -/
theorem exists_sent_eq (env : Environment ω σ)
    (hlinked : ∀ r ∈ relays, ∃ link, r.2 = .settled (some link) none)
    (hstreams : x.request.packet.header.opcode.streamsReply = false)
    (hfollowers : x.request.followers = relays.map Prod.fst) :
    let answer := applied env.engine x.request.packet x.node.store
    ∃ z, z.request.packet = answer.1 ∧ z.request.followers = x.request.followers ∧
      z.request.slots = relays.map (fun r ↦ (Sending.result r.2).1) ∧ z.node.store = answer.2 ∧
      z.node.forwarder = x.node.forwarder ∧
      x.sent env relays = if answer.1.header.result = .ok then
        (.collecting (relays.map fun r ↦ (r.1, .pending (Sending.result r.2).1)), z)
      else (.leaving false, z) := by
  intro answer
  let results := relays.map (Sending.result ·.2)
  have hnone : firstFault results = none := by
    refine (results_of_linked fun r hr ↦ ?_).1
    obtain ⟨link, hlink⟩ := hlinked r hr
    exact ⟨link, by rw [hlink]; rfl⟩
  have hsettle : x.settleExchange (fun _ ↦ .sendToFollowers) results x.node.forwarder =
      (none, x.exchanged results x.node.forwarder) := by
    simp only [settleExchange, hnone]
  obtain ⟨z, hz, hrequest, hstore, hforwarder, -⟩ := exists_operate_eq env
    (show (x.exchanged results x.node.forwarder).request.packet.header.opcode.streamsReply = false
      from hstreams)
  have hslots : z.request.slots = relays.map fun r ↦ (Sending.result r.2).1 := by
    rw [hrequest]
    exact List.map_map
  have hpending : Forwarder.pending z.request.followers z.request.slots =
      relays.map fun r ↦ (r.1, .pending (Sending.result r.2).1) := by
    have hsame : z.request.followers = relays.map Prod.fst := by rw [hrequest]; exact hfollowers
    rw [hsame, hslots, Forwarder.pending, List.zip_map', List.map_map]
    rfl
  have hpacket : z.request.packet = answer.1 := by rw [hrequest]; rfl
  refine ⟨z, hpacket, by rw [hrequest]; rfl, hslots, hstore, hforwarder, ?_⟩
  simp only [sent, results, hsettle, hz, Option.isNone_none, Bool.true_and, hpending,
    Request.isOk, hpacket, decide_eq_true_eq]

/-- When a relay has failed, the packet is not applied but answered with an error. -/
theorem sent_of_fault (env : Environment ω σ) (x : Handling ω σ)
    (hfault : ∃ r ∈ relays, (Sending.result r.2).2 ≠ none) :
    (x.sent env relays).1 = .leaving false ∧
      (x.sent env relays).2.request.packet.header.result ≠ .ok := by
  cases hfirst : firstFault (relays.map (Sending.result ·.2)) with
  | none =>
    obtain ⟨r, hr, hne⟩ := hfault
    exact absurd (firstFault_eq_none_iff.mp hfirst _ (List.mem_map_of_mem hr)) hne
  | some fault =>
    simp only [sent, settleExchange, hfirst]
    exact ⟨trivial, Wire.Packet.faultCode_ne_ok .sendToFollowers fault x.request.packet⟩

/-- When all replies were collected, the packet is answered, and with success only if all followers have
acknowledged it. -/
theorem exists_received_eq (replies : List (String × ReceiveStage)) (x : Handling ω σ) :
    ∃ ok z, x.received replies = (.leaving ok, z) ∧
      (ok = true ↔ ∀ r ∈ replies, (Receiving.result r.2).2 = none) ∧
      (ok = true → z.request.packet = x.request.packet) ∧
      (z.request.packet.header.result = .ok → ok = true) ∧
      z.request.followers = x.request.followers ∧
      z.request.slots = replies.map (fun r ↦ (Receiving.result r.2).1) ∧
      z.node.store = x.node.store ∧ z.node.forwarder.links = x.node.forwarder.links ∧
      z.node.forwarder.network = x.node.forwarder.network := by
  let results := replies.map (Receiving.result ·.2)
  have hslots : results.map Prod.fst = replies.map fun r ↦ (Receiving.result r.2).1 := List.map_map
  have hresults : firstFault results = none ↔ ∀ r ∈ replies, (Receiving.result r.2).2 = none := by
    rw [firstFault_eq_none_iff, List.forall_mem_map]
  cases hfault : firstFault results with
  | none =>
    refine ⟨true, x.exchanged results x.node.forwarder, ?_, by simpa using hresults.mp hfault,
      fun _ ↦ rfl, fun _ ↦ rfl, rfl, hslots, rfl, rfl, rfl⟩
    simp only [received, settleExchange]
    rw [show firstFault (replies.map (Receiving.result ·.2)) = none from hfault]
    rfl
  | some fault =>
    refine ⟨false, (x.exchanged results x.node.forwarder).failForward (receiveAction fault) fault, ?_,
      ?_, by simp, fun hok ↦ ?_, rfl, hslots, rfl, rfl, rfl⟩
    · simp only [received, settleExchange]
      rw [show firstFault (replies.map (Receiving.result ·.2)) = some fault from hfault]
      rfl
    · rw [← hresults, hfault]
      simp
    · exact absurd hok (Wire.Packet.faultCode_ne_ok _ _ _)

/-! ## The client -/

/-- Nothing was written to the client yet, and what is to be written is one reply. -/
structure Unanswered (s : Stage × Handling ω σ) : Prop where
  client_eq : s.2.client = .unbounded
  needsReply : s.2.request.needsReply = true
  not_streamed : ∀ relays, s.1 = .relaying relays →
    s.2.request.packet.header.opcode.streamsReply = false

theorem Unanswered.sent (h : Unanswered (.relaying relays, x)) : Unanswered (x.sent env relays) := by
  obtain ⟨hclient, hneeds, hstreams⟩ := h
  let results := relays.map (Sending.result ·.2)
  cases hfault : firstFault results with
  | some fault =>
    simp only [Handling.sent, settleExchange, results] at hfault ⊢
    rw [hfault]
    exact ⟨hclient, hneeds, by simp⟩
  | none =>
    obtain ⟨y, hy, hrequest, -, -, hsame⟩ := exists_operate_eq env
      (x := x.exchanged results x.node.forwarder) (hstreams relays rfl)
    have hneeds' : y.request.needsReply = true := by rw [hrequest]; exact hneeds
    simp only [Handling.sent, settleExchange, results] at hfault hy ⊢
    rw [hfault]
    simp only [hy]
    split
    · exact ⟨hsame.trans hclient, hneeds', by simp⟩
    · exact ⟨hsame.trans hclient, hneeds', by simp⟩

theorem Unanswered.received (h : Unanswered (.collecting replies, x)) :
    Unanswered (x.received replies) := by
  obtain ⟨hclient, hneeds, -⟩ := h
  simp only [Handling.received, settleExchange]
  split
  · exact ⟨hclient, hneeds, by simp⟩
  · exact ⟨hclient, hneeds, by simp⟩

/-- No act writes to the client. -/
theorem Unanswered.act {s s' : Stage × Handling ω σ} {a : Act} (h : Unanswered s)
    (ha : Handling.act env s a = some s') : Unanswered s' := by
  obtain ⟨stage, x⟩ := s
  cases stage with
  | relaying relays =>
    cases a with
    | exchange i =>
      obtain rfl := Option.some.inj ha
      exact ⟨h.client_eq, h.needsReply, fun _ _ ↦ h.not_streamed relays rfl⟩
    | proceed =>
      simp only [Handling.act] at ha
      split at ha
      · obtain rfl := Option.some.inj ha
        exact h.sent
      · cases ha
  | collecting replies =>
    cases a with
    | exchange i =>
      obtain rfl := Option.some.inj ha
      exact ⟨h.client_eq, h.needsReply, by simp⟩
    | proceed =>
      simp only [Handling.act] at ha
      split at ha
      · obtain rfl := Option.some.inj ha
        exact h.received
      · cases ha
  | leaving ok => cases ha

/-! ## Uninterrupted acts -/

structure Relays (addresses : List String) (x : Handling ω σ) : Prop where
  not_master : x.request.isMasterCommand = false
  parse_eq : Request.parseFollowers x.request.packet = .ok addresses
  isForward : x.request.isForward = true

def departing (addresses : List String) (x : Handling ω σ) : Stage × Handling ω σ :=
  (.relaying (addresses.map (·, .waiting)), x.resolved addresses)

theorem conclude_of_collecting (hoperated : y.request.isOk = true)
    (hslots : y.request.slots.length = y.request.followers.length)
    (hcollected : y.node.forwarder.collected env.network env.receiveSchedule
      y.request.packet.header.requestId y.request.followers y.request.slots =
        (replies, x.node.forwarder))
    (hx : x = y.setForwarder x.node.forwarder) :
    ∃ ok z, x.received replies = (.leaving ok, z) ∧ y.conclude env none = z.finish env ok := by
  refine ⟨_, _, rfl, ?_⟩
  have hreceive := receive_of_slots env y hslots
  rw [hcollected] at hreceive
  have hsame (results : List (Option Link × Option Fault)) :
      x.exchanged results x.node.forwarder = y.exchanged results x.node.forwarder := by
    rw [hx]
    rfl
  have hsettle : x.settleExchange receiveAction (replies.map (Receiving.result ·.2))
      x.node.forwarder = y.receive env := by
    rw [hreceive]
    simp only [settleExchange, hsame]
  rw [hsettle, conclude, hoperated]
  rfl

/-- When the schedule of the environment brings all relays to their end, so do the acts, and what
follows is what `process` does. -/
theorem process_of_relayed (h : Relays addresses x)
    (hrelayed : x.node.forwarder.relayed env.network env.sendSchedule (relayFrame x.request.packet)
      addresses = (relays, y.node.forwarder))
    (hy : y = (x.resolved addresses).setForwarder y.node.forwarder) :
    (∃ z, y.sent env relays = (.leaving false, z) ∧ x.process env = (none, z.finish env false)) ∨
      ∃ z, y.sent env relays =
          (.collecting (Forwarder.pending z.request.followers z.request.slots), z) ∧
        x.process env = (none, z.conclude env none) ∧ z.request.isOk = true ∧
        z.request.slots.length = z.request.followers.length := by
  have hforward : (x.resolved addresses).request.isForward = true := h.isForward
  have hsend := send_resolved env addresses x
  rw [hrelayed] at hsend
  rw [process_of_parse_ok h.not_master h.parse_eq]
  let results := relays.map (Sending.result ·.2)
  have hsame : y.exchanged results y.node.forwarder =
      (x.resolved addresses).exchanged results y.node.forwarder := by
    rw [hy]
    rfl
  have hsettle : y.settleExchange (fun _ ↦ .sendToFollowers) results y.node.forwarder =
      (x.resolved addresses).send env := by
    rw [hsend]
    simp only [settleExchange]
    rw [hsame]
  rcases hs : (x.resolved addresses).send env with ⟨_ | fault, z⟩
  · have hz : z = (x.resolved addresses).exchanged results y.node.forwarder := by
      rw [hs] at hsend
      simp only [settleExchange] at hsend
      split at hsend
      · exact (Prod.mk.inj hsend).2
      · cases (Prod.mk.inj hsend).1
    have hstreams : z.request.packet.header.opcode.streamsReply = false := by
      rw [hz]
      exact streamsReply_of_isForward hforward
    obtain ⟨o, ho, hrequest, -, -, -⟩ := exists_operate_eq env hstreams
    rw [processResolved_of_sent hforward hs, ho]
    have hsent : y.sent env relays = if o.request.isOk then
        (.collecting (Forwarder.pending o.request.followers o.request.slots), o)
        else (.leaving false, o) := by
      rw [sent, hsettle, hs]
      simp only [ho]
      rfl
    by_cases hok : o.request.isOk = true
    · rw [if_pos hok] at hsent
      refine .inr ⟨o, hsent, rfl, hok, ?_⟩
      have hlength := Forwarder.length_relayed env.network env.sendSchedule
        (relayFrame x.request.packet) addresses x.node.forwarder
      rw [hrelayed] at hlength
      rw [hrequest, hz]
      change ((relays.map _).map _).length = addresses.length
      rw [List.length_map, List.length_map, hlength]
    · rw [if_neg hok] at hsent
      refine .inl ⟨o, hsent, ?_⟩
      rw [conclude, if_neg (by simpa using hok)]
  · refine .inl ⟨z, ?_, ?_⟩
    · rw [sent, hsettle, hs]
    · rw [processResolved_of_send_fault hforward hs]

/-- Acts that lead from the relays to the end pass the point at which all relays have ended. -/
theorem exists_sent_of_follow {acts : List Act} {ok : Bool}
    (h : follow env acts (.relaying relays, x) = some (.leaving ok, y)) :
    ∃ schedule rest,
      let run := runAll (Sending.advance env.network (relayFrame x.request.packet)) schedule
        (relays, x.node.forwarder)
      run.1.all (·.2.isSettled) ∧
        follow env rest ((x.setForwarder run.2).sent env run.1) = some (.leaving ok, y) := by
  induction acts generalizing relays x with
  | nil => cases h
  | cons a acts ih =>
    cases a with
    | exchange i =>
      obtain ⟨schedule, rest, hsettled, hrest⟩ := ih h
      exact ⟨i :: schedule, rest, hsettled, hrest⟩
    | proceed =>
      simp only [follow, act] at h
      split at h
      · rename_i hsettled
        exact ⟨[], acts, hsettled, h⟩
      · cases h

/-- Acts that lead from the replies to the end pass the point at which all replies were collected, and
there is nothing after it. -/
theorem exists_received_of_follow {acts : List Act} {ok : Bool}
    (h : follow env acts (.collecting replies, x) = some (.leaving ok, y)) :
    ∃ schedule,
      let run := runAll (Receiving.advance env.network x.request.packet.header.requestId) schedule
        (replies, x.node.forwarder)
      run.1.all (·.2.isSettled) ∧ (x.setForwarder run.2).received run.1 = (.leaving ok, y) := by
  induction acts generalizing replies x with
  | nil => cases h
  | cons a acts ih =>
    cases a with
    | exchange i =>
      obtain ⟨schedule, hsettled, hreceived⟩ := ih h
      exact ⟨i :: schedule, hsettled, hreceived⟩
    | proceed =>
      simp only [follow, act] at h
      split at h
      · rename_i hsettled
        refine ⟨[], hsettled, ?_⟩
        cases acts with
        | nil => exact Option.some.inj h
        | cons => cases h
      · cases h

/-- However the acts of a packet follow each other, as long as nothing comes between them they are what
`process` does on some schedules. -/
theorem process_of_follow {acts : List Act} {ok : Bool} (h : Relays addresses x)
    (hacts : follow env acts (x.departing addresses) = some (.leaving ok, y)) :
    ∃ sendSchedule receiveSchedule,
      x.process { env with sendSchedule, receiveSchedule } = (none, y.finish env ok) := by
  obtain ⟨sends, rest, hsettled, hrest⟩ := exists_sent_of_follow hacts
  let run := runAll (Sending.advance env.network (relayFrame x.request.packet)) sends
    (addresses.map (·, .waiting), x.node.forwarder)
  let w := (x.resolved addresses).setForwarder run.2
  have hrelayed : x.node.forwarder.relayed env.network sends (relayFrame x.request.packet)
      addresses = run := Forwarder.relayed_of_settled rfl hsettled
  let scheduled (receives : List Nat) : Environment ω σ :=
    { env with sendSchedule := sends, receiveSchedule := receives }
  have hprocess (receives : List Nat) := process_of_relayed (y := w) h
    (show x.node.forwarder.relayed (scheduled receives).network (scheduled receives).sendSchedule
      (relayFrame x.request.packet) addresses = (run.1, w.node.forwarder) from hrelayed) rfl
  have hsame (receives : List Nat) : w.sent (scheduled receives) run.1 = w.sent env run.1 := rfl
  change follow env rest (w.sent env run.1) = _ at hrest
  rcases hprocess [] with ⟨z, hsent, hz⟩ | ⟨z, hsent, -, hok, hlength⟩
  · rw [← hsame [], hsent] at hrest
    cases rest with
    | nil =>
      obtain ⟨⟨rfl⟩, rfl⟩ := by simpa [follow] using hrest
      exact ⟨sends, [], hz⟩
    | cons => cases hrest
  · rw [← hsame [], hsent] at hrest
    obtain ⟨receives, hsettled', hreceived⟩ := exists_received_of_follow hrest
    let run' := runAll (Receiving.advance env.network z.request.packet.header.requestId) receives
      (Forwarder.pending z.request.followers z.request.slots, z.node.forwarder)
    have hcollected : z.node.forwarder.collected env.network receives
        z.request.packet.header.requestId z.request.followers z.request.slots = run' :=
      Forwarder.collected_of_settled rfl hsettled'
    refine ⟨sends, receives, ?_⟩
    rcases hprocess receives with ⟨z', hsent', -⟩ | ⟨z', hsent', hprocessed, -, -⟩
    · cases hsent.symm.trans hsent'
    · obtain rfl : z = z' := congrArg Prod.snd (hsent.symm.trans hsent')
      obtain ⟨ok', u, hreceived', hconclude⟩ :
          ∃ ok' u, (z.setForwarder run'.2).received run'.1 = (.leaving ok', u) ∧
            z.conclude (scheduled receives) none = u.finish (scheduled receives) ok' :=
        conclude_of_collecting hok hlength hcollected rfl
      obtain ⟨⟨rfl⟩, rfl⟩ := by simpa using hreceived.symm.trans hreceived'
      change x.process (scheduled receives) = _
      rw [hprocessed, hconclude]
      rfl

end Handling

end ReplicaChain
