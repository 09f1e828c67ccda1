import ReplicaChain.Proofs.Node.Acknowledgement
import ReplicaChain.Proofs.Node.Task

/-!
# What a node does while it handles a packet

The engine can be made to keep a record of what is asked of it, just like the network.  On such an engine
and such a network every part of handling a packet is seen to do one of three things: an exchange whose
link is connected writes the frame to be relayed, once; applying the packet asks the engine for the
operation of the packet, once; and everything else neither writes nor asks.
-/

namespace ReplicaChain

open Follower

variable {ω σ : Type}

/-! ## Records -/

/-- The engine that behaves like `engine` and keeps a record of what it is asked for, the newest
first. -/
def Extent.recorded (engine : Extent.Engine ω) : Extent.Engine (ω × List Extent.Operation) :=
  fun op s ↦
    let done := engine op s.1
    (done.1, done.2, op :: s.2)

/-- The environment in which both the engine and the network keep a record. -/
def Environment.observed (env : Environment ω σ) :
    Environment (ω × List Extent.Operation) (σ × List Event) where
  cluster := env.cluster
  engine := Extent.recorded env.engine
  network := env.network.recorded
  now := env.now
  elapsed := env.elapsed
  sendSchedule := env.sendSchedule
  receiveSchedule := env.receiveSchedule

def Event.written : Event → Option (Link × ByteArray × Bool)
  | wrote link bytes whole => some (link, bytes, whole)
  | dialed _ _ | offered _ _ => none

/-- Everything that was written, the newest first. -/
def Follower.Forwarder.written (f : Forwarder (σ × List Event)) : List (Link × ByteArray × Bool) :=
  f.network.2.filterMap Event.written

namespace Handling

variable {env : Environment ω σ} {x : Handling (ω × List Extent.Operation) (σ × List Event)}

/-- What was asked of the engine, the newest first. -/
def asked (x : Handling (ω × List Extent.Operation) (σ × List Event)) : List Extent.Operation :=
  x.node.store.2

/-! ## Applying the packet -/

def operations (p : Wire.Packet) : List Extent.Operation :=
  (operationOf p).toOption.toList

theorem asked_perform (env : Environment ω σ)
    (x : Handling (ω × List Extent.Operation) (σ × List Event)) :
    (x.perform env.observed).2.asked = operations x.request.packet ++ x.asked := by
  unfold perform operations
  rcases operationOf x.request.packet with fault | op
  · rfl
  · dsimp only [Environment.observed, Extent.recorded]
    rcases env.engine op x.node.store.1 with ⟨_ | _, store⟩ <;> rfl

@[simp]
theorem asked_stream (now : Int64) (b : ByteArray)
    (x : Handling (ω × List Extent.Operation) (σ × List Event)) :
    (x.stream now b).2.asked = x.asked := by
  unfold stream
  dsimp only
  split <;> rfl

/-- Applying a packet asks for its operation. -/
theorem asked_operate (env : Environment ω σ)
    (x : Handling (ω × List Extent.Operation) (σ × List Event)) :
    (x.operate env.observed).2.asked = operations x.request.packet ++ x.asked := by
  rw [← asked_perform env x]
  rcases operate_cases env.observed x with ⟨fault, h⟩ | ⟨a, h⟩ | ⟨a, h⟩ <;> rw [h]
  · rfl
  · exact asked_stream _ _ _
  · rfl

/-! ## Exchanges -/

/-- An exchange whose link is connected writes the frame, and has then come to its end.  No other advance of
a relay writes anything, and one that has come to its end stays as it is. -/
theorem written_advance (net : Network σ) (frame : ByteArray) (address : String) (stage : SendStage)
    (f : Forwarder (σ × List Event)) :
    let advanced := Sending.advance net.recorded frame address stage f
    (∃ link whole, stage = .connected link ∧ advanced.1.isSettled = true ∧
      advanced.2.written = (link, frame, whole) :: f.written) ∨
    (stage.isSettled = true → advanced.1.isSettled = true) ∧ advanced.2.written = f.written := by
  intro advanced
  have hadv : Sending.Advances net.recorded frame address stage f advanced.1 advanced.2 :=
    Sending.advances_advance net.recorded frame address stage f
  generalize advanced = a at hadv ⊢
  obtain ⟨stage', f'⟩ := a
  unfold Forwarder.written
  cases hadv with
  | refused hr | idle hr => exact .inr ⟨nofun, rfl⟩
  | dialing hr hd => exact .inr ⟨nofun, by rw [Network.record_of_dial_none hd]⟩
  | dialed hr hd | undialed fault hr hd ha =>
    exact .inr ⟨nofun, by rw [Network.record_of_dial_some hd]; rfl⟩
  | awaited hd | unawaited fault hd ha =>
    exact .inr ⟨nofun, by rw [Network.record_of_await hd]; rfl⟩
  | written hw | unwritten hw =>
    exact .inl ⟨_, _, rfl, rfl, by rw [Network.record_of_write hw]; rfl⟩
  | settled => exact .inr ⟨fun h ↦ h, rfl⟩

/-- Collecting a reply writes nothing. -/
theorem written_receiving_advance (net : Network σ) (requestId : Int64) (address : String)
    (stage : ReceiveStage) (f : Forwarder (σ × List Event)) :
    (Receiving.advance net.recorded requestId address stage f).2.written = f.written := by
  rcases stage with (_ | link) | ⟨link, fault⟩
  · rfl
  · obtain ⟨s, hrecord, -⟩ := exists_offered_receiveOne net requestId address link f
    rw [Forwarder.written, Receiving.advance, hrecord]
    rfl
  · rfl

/-! ## Acts -/

def EndedAt (relays : List (String × SendStage)) (i : Nat) : Prop :=
  ∃ r, relays[i]? = some r ∧ r.2.isSettled = true

theorem endedAt_set {relays : List (String × SendStage)} {i j : Nat} {r r' : String × SendStage}
    (hi : relays[i]? = some r) (hr : r.2.isSettled = true → r'.2.isSettled = true)
    (hj : EndedAt relays j) : EndedAt (relays.set i r') j := by
  obtain ⟨q, hq, hsettled⟩ := hj
  obtain ⟨hlt, -⟩ := List.getElem?_eq_some_iff.mp hi
  by_cases hij : i = j
  · subst hij
    obtain rfl : r = q := Option.some.inj (hi.symm.trans hq)
    exact ⟨r', List.getElem?_set_self hlt, hr hsettled⟩
  · exact ⟨q, by rw [List.getElem?_set_ne hij, hq], hsettled⟩

/-- When one of many relays goes on, the others stay where they are.  If something is written it is the
frame, by a relay that comes to its end with it. -/
theorem written_stepAt (net : Network σ) (frame : ByteArray) (relays : List (String × SendStage))
    (f : Forwarder (σ × List Event)) (i : Nat) :
    let stepped := stepAt (Sending.advance net.recorded frame) (relays, f) i
    stepped.1.length = relays.length ∧ (∀ j, EndedAt relays j → EndedAt stepped.1 j) ∧
      (stepped.2.written = f.written ∨ ∃ link whole,
        stepped.2.written = (link, frame, whole) :: f.written ∧ i < relays.length ∧
          ¬ EndedAt relays i ∧ EndedAt stepped.1 i) := by
  rcases hi : relays[i]? with _ | ⟨address, stage⟩
  · simp only [stepAt, hi]
    exact ⟨trivial, fun _ h ↦ h, .inl trivial⟩
  · obtain ⟨hlt, -⟩ := List.getElem?_eq_some_iff.mp hi
    simp only [stepAt, hi, List.length_set, true_and]
    rcases written_advance net frame address stage f with
      ⟨link, whole, rfl, hsettled, hwritten⟩ | ⟨hkept, hwritten⟩
    · refine ⟨fun j ↦ endedAt_set hi fun _ ↦ hsettled, .inr ⟨link, whole, hwritten, hlt, ?_, ?_⟩⟩
      · rintro ⟨r, hr, hended⟩
        obtain rfl : (address, .connected link) = r := Option.some.inj (hi.symm.trans hr)
        cases hended
      · exact ⟨_, List.getElem?_set_self hlt, hsettled⟩
    · exact ⟨fun j ↦ endedAt_set hi hkept, .inl hwritten⟩

theorem written_receiving_stepAt (net : Network σ) (requestId : Int64)
    (replies : List (String × ReceiveStage)) (f : Forwarder (σ × List Event)) (i : Nat) :
    (stepAt (Receiving.advance net.recorded requestId) (replies, f) i).2.written = f.written := by
  unfold stepAt
  split
  · rfl
  · exact written_receiving_advance _ _ _ _ _

/-- When all relays have ended, the packet is applied or a fault is reported, and nothing is written. -/
theorem observed_sent (env : Environment ω σ)
    (x : Handling (ω × List Extent.Operation) (σ × List Event)) (relays : List (String × SendStage)) :
    (∀ relays', (x.sent env.observed relays).1 ≠ .relaying relays') ∧
      (x.sent env.observed relays).2.node.forwarder.written = x.node.forwarder.written ∧
      ((x.sent env.observed relays).2.asked = x.asked ∨
        (x.sent env.observed relays).2.asked = operations x.request.packet ++ x.asked) := by
  let results := relays.map (Sending.result ·.2)
  cases hfault : firstFault results with
  | some fault =>
    simp only [sent, settleExchange, results] at hfault ⊢
    rw [hfault]
    exact ⟨by simp, rfl, .inl rfl⟩
  | none =>
    let z := x.exchanged results x.node.forwarder
    have hwritten : (z.operate env.observed).2.node.forwarder.written = x.node.forwarder.written := by
      rw [forwarder_operate]
      rfl
    have hasked : (z.operate env.observed).2.asked = operations x.request.packet ++ x.asked :=
      asked_operate env z
    simp only [sent, settleExchange, results] at hfault ⊢
    rw [hfault]
    dsimp only
    split
    · exact ⟨by simp, hwritten, .inr hasked⟩
    · exact ⟨by simp, hwritten, .inr hasked⟩

/-- When all replies were collected, nothing is left but to settle the links. -/
theorem observed_received (replies : List (String × ReceiveStage))
    (x : Handling (ω × List Extent.Operation) (σ × List Event)) :
    (∀ relays, (x.received replies).1 ≠ .relaying relays) ∧
      (x.received replies).2.node.forwarder.written = x.node.forwarder.written ∧
      (x.received replies).2.asked = x.asked := by
  simp only [received, settleExchange]
  split <;> exact ⟨by simp, rfl, rfl⟩

/-- An act writes or asks at most once: a relay that goes on may write the frame of the packet, and when all
relays have ended the packet may be applied. -/
theorem act_cases {stage stage' : Stage} {a : Act}
    {y : Handling (ω × List Extent.Operation) (σ × List Event)}
    (h : act env.observed (stage, x) a = some (stage', y)) :
    (∃ relays relays' i, stage = .relaying relays ∧ a = .exchange i ∧ stage' = .relaying relays' ∧
      y.request = x.request ∧ y.asked = x.asked ∧ relays'.length = relays.length ∧
      (∀ j, EndedAt relays j → EndedAt relays' j) ∧
      (y.node.forwarder.written = x.node.forwarder.written ∨ ∃ link whole,
        y.node.forwarder.written =
          (link, relayFrame x.request.packet, whole) :: x.node.forwarder.written ∧
        i < relays.length ∧ ¬ EndedAt relays i ∧ EndedAt relays' i)) ∨
    ((∀ relays, stage' ≠ .relaying relays) ∧
      y.node.forwarder.written = x.node.forwarder.written ∧
      (y.asked = x.asked ∨
        (∃ relays, stage = .relaying relays) ∧ y.asked = operations x.request.packet ++ x.asked)) := by
  cases stage with
  | relaying relays =>
    cases a with
    | exchange i =>
      obtain ⟨rfl, rfl⟩ := Prod.mk.inj (Option.some.inj h)
      obtain ⟨hlength, hended, hwritten⟩ := written_stepAt env.network (relayFrame x.request.packet)
        relays x.node.forwarder i
      exact .inl ⟨relays, _, i, rfl, rfl, rfl, rfl, rfl, hlength, hended, hwritten⟩
    | proceed =>
      simp only [act] at h
      split at h
      · obtain ⟨hstage, hwritten, hasked⟩ := observed_sent env x relays
        obtain ⟨rfl, rfl⟩ := Prod.mk.inj (Option.some.inj h)
        exact .inr ⟨hstage, hwritten, hasked.imp_right fun hasked ↦ ⟨⟨relays, rfl⟩, hasked⟩⟩
      · cases h
  | collecting replies =>
    cases a with
    | exchange i =>
      obtain ⟨rfl, rfl⟩ := Prod.mk.inj (Option.some.inj h)
      refine .inr ⟨by simp, ?_, .inl rfl⟩
      exact written_receiving_stepAt env.network _ replies x.node.forwarder i
    | proceed =>
      simp only [act] at h
      split at h
      · obtain ⟨hstage, hwritten, hasked⟩ := observed_received replies x
        obtain ⟨rfl, rfl⟩ := Prod.mk.inj (Option.some.inj h)
        exact .inr ⟨hstage, hwritten, .inl hasked⟩
      · cases h
  | leaving ok => cases h

/-! ## Whole packets -/

/-- Settling the links neither writes nor asks. -/
theorem observed_finish (env : Environment ω σ) (ok : Bool)
    (x : Handling (ω × List Extent.Operation) (σ × List Event)) :
    (x.finish env.observed ok).node.forwarder.written = x.node.forwarder.written ∧
      (x.finish env.observed ok).asked = x.asked :=
  ⟨congrArg (List.filterMap Event.written) (record_foldl_settle env.network ok _ _), rfl⟩

/-- A packet that is not to be relayed is applied, or refused, and nothing is written to any follower. -/
theorem observed_process (env : Environment ω σ)
    {x : Handling (ω × List Extent.Operation) (σ × List Event)}
    (hlocal : ∀ addresses, ¬ Relays addresses x) :
    (x.process env.observed).2.node.forwarder.written = x.node.forwarder.written ∧
      ((x.process env.observed).2.asked = x.asked ∨
        (x.process env.observed).2.asked = operations x.request.packet ++ x.asked) := by
  have hoperate (addresses : List String) : ∀ z, z = x ∨ z = x.resolved addresses →
      (z.operate env.observed).2.node.forwarder.written = x.node.forwarder.written ∧
        (z.operate env.observed).2.asked = operations x.request.packet ++ x.asked := by
    rintro z (rfl | rfl) <;>
    · rw [forwarder_operate]
      exact ⟨rfl, asked_operate env _⟩
  by_cases hm : x.request.isMasterCommand = true
  · rw [process_of_isMasterCommand hm]
    exact ⟨(hoperate [] x (.inl rfl)).1, .inr (hoperate [] x (.inl rfl)).2⟩
  simp only [Bool.not_eq_true] at hm
  rcases hp : Request.parseFollowers x.request.packet with fault | addresses
  · rw [process_of_parse_error hm hp]
    exact ⟨rfl, .inl rfl⟩
  have hf : (x.resolved addresses).request.isForward = false := by
    rw [← Bool.not_eq_true]
    exact fun hf ↦ hlocal addresses ⟨hm, hp, hf⟩
  rw [process_of_parse_ok hm hp, processResolved_of_local hf]
  exact ⟨(hoperate addresses _ (.inr rfl)).1, .inr (hoperate addresses _ (.inr rfl)).2⟩

end Handling

end ReplicaChain
