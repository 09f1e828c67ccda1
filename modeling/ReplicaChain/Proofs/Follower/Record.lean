import ReplicaChain.Proofs.Follower.LinkPool
import ReplicaChain.Proofs.Node.Projection
import ReplicaChain.Proofs.Wire.Decoding

/-!
# What followers were seen to do

Any network can be made to keep a record of what happens on it: which dials were decided, which byte
strings were written whole or in part, and what every link delivered to its reader.  The relays and
replies of a packet are read off the record.  Each exchange writes at most one frame and reads at most
one reply, so the links on which whole frames were written are, up to their order, the links of the
relays that succeeded, and likewise for the replies.
-/

namespace ReplicaChain

open Follower
open Wire (Packet)

variable {ω σ : Type}

/-! ## Records -/

inductive Event where
  /-- It was decided how a dial turns out. -/
  | dialed (link : Link) (outcome : Attempt)
  /-- Bytes were written, all of them or not. -/
  | wrote (link : Link) (bytes : ByteArray) (whole : Bool)
  /-- A reader was offered a source. -/
  | offered (link : Link) (s : Source)

/-- The network that behaves like `net` and keeps a record, the newest event first. -/
def Network.recorded (net : Network σ) : Network (σ × List Event) where
  dial link t :=
    let dialed := net.dial link t.1
    (dialed.1, dialed.2, dialed.1.elim t.2 fun a ↦ .dialed link a :: t.2)
  await link t :=
    let awaited := net.await link t.1
    (awaited.1, awaited.2, .dialed link awaited.1 :: t.2)
  write link b t :=
    let wrote := net.write link b t.1
    (wrote.1, wrote.2, .wrote link b wrote.1.toBool :: t.2)
  incoming link t :=
    let incoming := net.incoming link t.1
    (incoming.1, incoming.2, .offered link incoming.1 :: t.2)
  leave link rest t := (net.leave link rest t.1, t.2)
  close link t := (net.close link t.1, t.2)

namespace Network

/-- Keeping a record changes nothing else. -/
theorem recorded_projects (net : Network σ) : net.recorded.Projects Prod.fst net := by
  constructor <;> intros <;> rfl

variable {net : Network σ} {link : Link} {b : ByteArray} {t t' : σ × List Event}

theorem record_of_dial_none (h : net.recorded.dial link t = (none, t')) : t'.2 = t.2 := by
  obtain ⟨hd, rfl⟩ := Prod.mk.inj h
  simp [hd]

theorem record_of_dial_some {a : Attempt} (h : net.recorded.dial link t = (some a, t')) :
    t'.2 = .dialed link a :: t.2 := by
  obtain ⟨hd, rfl⟩ := Prod.mk.inj h
  simp [hd]

theorem record_of_await {a : Attempt} (h : net.recorded.await link t = (a, t')) :
    t'.2 = .dialed link a :: t.2 := by
  obtain ⟨rfl, rfl⟩ := Prod.mk.inj h
  rfl

theorem record_of_write {r : Except IoFault Unit} (h : net.recorded.write link b t = (r, t')) :
    t'.2 = .wrote link b r.toBool :: t.2 := by
  obtain ⟨rfl, rfl⟩ := Prod.mk.inj h
  rfl

end Network

/-! ## Reading a record -/

/-- Whether a source begins with a frame that acknowledges a request. -/
def acknowledges (requestId : Int64) (s : Source) : Bool :=
  match (Packet.decode .standard s).1 with
  | .ok reply => reply.header.requestId = requestId && reply.header.result = .ok
  | .error _ => false

namespace Event

def writtenOn (frame : ByteArray) : Event → Option Link
  | wrote link bytes whole => if whole ∧ bytes = frame then some link else none
  | _ => none

def acknowledgedOn (requestId : Int64) : Event → Option Link
  | offered link s => if acknowledges requestId s then some link else none
  | _ => none

end Event

/-- A link was obtained for an address: it lay idle in the pool, or it was dialed to the address. -/
def Obtained (idle : List (String × Link)) (record : List Event) (address : String) (link : Link) :
    Prop :=
  (address, link) ∈ idle ∨ link.address = address ∧ .dialed link .succeeded ∈ record

theorem Obtained.mono {idle : List (String × Link)} {record record' : List Event}
    {address : String} {link : Link} (h : Obtained idle record address link)
    (hr : record ⊆ record') : Obtained idle record' address link :=
  h.imp_right fun ⟨ha, hd⟩ ↦ ⟨ha, hr hd⟩

namespace Follower

/-! ## Relays -/

def relayedOn : String × SendStage → Option Link
  | (_, .settled link none) => link
  | _ => none

/-- What a record says about a relay that has come to a stage. -/
def SendStage.Recorded (idle : List (String × Link)) (record : List Event) (address : String) :
    SendStage → Prop
  | .waiting => True
  | .dialing link => link.address = address
  | .connected link => Obtained idle record address link
  | .settled (some link) _ => Obtained idle record address link
  | .settled none fault => fault ≠ none

theorem SendStage.Recorded.mono {idle : List (String × Link)} {record record' : List Event}
    {address : String} {stage : SendStage} (h : stage.Recorded idle record address)
    (hr : record ⊆ record') : stage.Recorded idle record' address := by
  cases stage with
  | waiting => trivial
  | dialing link => exact h
  | connected link => exact Obtained.mono h hr
  | settled link fault =>
    cases link with
    | none => exact h
    | some link => exact Obtained.mono h hr

/-- The record agrees with relays of `frame` that started with the idle links `idle`. -/
structure Relaying (frame : ByteArray) (idle : List (String × Link))
    (relays : List (String × SendStage)) (f : Forwarder (σ × List Event)) : Prop where
  written : (f.network.2.filterMap (Event.writtenOn frame)).Perm (relays.filterMap relayedOn)
  unread : ∀ requestId, f.network.2.filterMap (Event.acknowledgedOn requestId) = []
  idle_subset : f.links.idle ⊆ idle
  recorded : ∀ r ∈ relays, r.2.Recorded idle f.network.2 r.1

variable {net : Network σ} {frame : ByteArray} {idle : List (String × Link)}

/-- One advance keeps the record and the relays in agreement, if it writes no more than it succeeds
in relaying and reads nothing. -/
theorem Relaying.set {relays : List (String × SendStage)} {f f' : Forwarder (σ × List Event)}
    {i : Nat} {address : String} {stage stage' : SendStage} (events : List Event)
    (h : Relaying frame idle relays f) (hi : relays[i]? = some (address, stage))
    (hold : relayedOn (address, stage) = none)
    (hrecord : f'.network.2 = events ++ f.network.2)
    (hwritten : events.filterMap (Event.writtenOn frame) = (relayedOn (address, stage')).toList)
    (hunread : ∀ requestId, events.filterMap (Event.acknowledgedOn requestId) = [])
    (hidle : f'.links.idle ⊆ f.links.idle)
    (hstage : stage'.Recorded idle f'.network.2 address) :
    Relaying frame idle (relays.set i (address, stage')) f' where
  written := by
    rw [hrecord, List.filterMap_append, hwritten]
    exact (h.written.append_left _).trans (filterMap_set_perm _ hi hold).symm
  unread requestId := by
    calc
      f'.network.2.filterMap (Event.acknowledgedOn requestId) =
          events.filterMap (Event.acknowledgedOn requestId) ++
            f.network.2.filterMap (Event.acknowledgedOn requestId) := by
        rw [hrecord, List.filterMap_append]
      _ = [] := by rw [hunread, h.unread, List.append_nil]
  idle_subset := List.Subset.trans hidle h.idle_subset
  recorded r hr := by
    rcases List.mem_or_eq_of_mem_set hr with hr | rfl
    · refine (h.recorded r hr).mono ?_
      rw [hrecord]
      exact List.subset_append_right _ _
    · exact hstage

theorem Relaying.advance {relays : List (String × SendStage)} {f : Forwarder (σ × List Event)}
    {i : Nat} {address : String} {stage : SendStage} (h : Relaying frame idle relays f)
    (hi : relays[i]? = some (address, stage)) :
    Relaying frame idle
      (relays.set i (address, (Sending.advance net.recorded frame address stage f).1))
      (Sending.advance net.recorded frame address stage f).2 := by
  have hstage : stage.Recorded idle f.network.2 address :=
    h.recorded _ (List.mem_of_getElem? hi)
  have hadv := Sending.advances_advance net.recorded frame address stage f
  generalize Sending.advance net.recorded frame address stage f = advanced at hadv ⊢
  obtain ⟨stage', f'⟩ := advanced
  cases hadv with
  | refused hr =>
    exact h.set [] hi rfl rfl rfl (fun _ ↦ rfl) (LinkPool.idle_subset_of_request hr)
      (by simp [SendStage.Recorded])
  | idle hr =>
    exact h.set [] hi rfl rfl rfl (fun _ ↦ rfl) (LinkPool.idle_subset_of_request hr)
      (.inl (h.idle_subset (LinkPool.mem_idle_of_request_idle hr)))
  | dialing hr hd =>
    exact h.set [] hi rfl (Network.record_of_dial_none hd) rfl (fun _ ↦ rfl)
      (LinkPool.idle_subset_of_request hr) (by rw [(LinkPool.request_toDial hr).1]; rfl)
  | @dialed _ link _ _ hr hd =>
    have hidle := LinkPool.idle_subset_of_request hr
    have hrecord := Network.record_of_dial_some hd
    refine h.set [.dialed link .succeeded] hi rfl hrecord rfl (fun _ ↦ rfl) hidle (.inr ⟨?_, ?_⟩)
    · rw [(LinkPool.request_toDial hr).1]
    · simp [hrecord]
  | @undialed _ link _ _ a fault hr hd ha =>
    have hidle := LinkPool.idle_subset_of_request hr
    exact h.set [.dialed link a] hi rfl (Network.record_of_dial_some hd) rfl (fun _ ↦ rfl) hidle
      (by simp [SendStage.Recorded])
  | @awaited _ link _ hd =>
    have hrecord := Network.record_of_await hd
    exact h.set [.dialed link .succeeded] hi rfl hrecord rfl (fun _ ↦ rfl) (List.Subset.refl _)
      (.inr ⟨hstage, by simp [hrecord]⟩)
  | @unawaited _ link _ a fault hd ha =>
    exact h.set [.dialed link a] hi rfl (Network.record_of_await hd) rfl (fun _ ↦ rfl)
      (List.Subset.refl _) (by simp [SendStage.Recorded])
  | @written _ link _ hw =>
    have hrecord := Network.record_of_write hw
    refine h.set [.wrote link frame true] hi rfl hrecord ?_ (fun _ ↦ rfl) (List.Subset.refl _) ?_
    · simp [Event.writtenOn, relayedOn]
    · refine Obtained.mono hstage ?_
      simp [hrecord]
  | @unwritten _ link _ fault hw =>
    have hrecord := Network.record_of_write hw
    refine h.set [.wrote link frame false] hi rfl hrecord ?_ (fun _ ↦ rfl) (List.Subset.refl _) ?_
    · simp [Event.writtenOn, relayedOn]
    · refine Obtained.mono hstage ?_
      simp [hrecord]
  | settled => rwa [set_of_getElem?_eq hi]

/-- Relays of a frame on a network without a record so far. -/
theorem relaying_relayed (net : Network σ) (schedule : List Nat) (frame : ByteArray)
    (followers : List String) {f : Forwarder (σ × List Event)} (hf : f.network.2 = []) :
    Relaying frame f.links.idle
      (f.relayed net.recorded schedule frame followers).1
      (f.relayed net.recorded schedule frame followers).2 := by
  have hnone : (followers.map fun a ↦ (a, SendStage.waiting)).filterMap relayedOn = [] := by
    simp [relayedOn]
  have hstart : Relaying frame f.links.idle (followers.map (·, SendStage.waiting)) f := by
    refine ⟨?_, fun _ ↦ by rw [hf]; rfl, List.Subset.refl _, fun r hr ↦ ?_⟩
    · rw [hf, hnone]
      exact .nil
    · obtain ⟨address, -, rfl⟩ := List.mem_map.mp hr
      trivial
  exact runAll_induction (P := Relaying frame f.links.idle)
    (fun l f i address stage hi h ↦ h.advance hi) _ hstart

/-! ## Replies -/

def collectedOn : String × ReceiveStage → Option Link
  | (_, .settled link none) => link
  | _ => none

/-- Reading one reply is recorded, and it is no fault just when the reply acknowledges the request. -/
theorem exists_offered_receiveOne (net : Network σ) (requestId : Int64) (address : String)
    (link : Link) (f : Forwarder (σ × List Event)) :
    ∃ s, (f.receiveOne net.recorded requestId address link).2.network.2 =
        .offered link s :: f.network.2 ∧
      ((f.receiveOne net.recorded requestId address link).1 = none ↔
        acknowledges requestId s = true) := by
  refine ⟨(net.incoming link f.network.1).1, ?_⟩
  simp only [Forwarder.receiveOne, Network.recorded]
  have hpool := (Packet.decode_pool .standard f.buffers (net.incoming link f.network.1).1).1
  rcases hd : Packet.decode f.buffers (net.incoming link f.network.1).1 with ⟨fault | reply, pool, rest⟩
  · rw [hd] at hpool
    simp [acknowledges, hpool]
  · rw [hd] at hpool
    refine ⟨rfl, ?_⟩
    simp only [acknowledges, hpool, checkReply]
    split
    · simp_all
    · split <;> simp_all

/-- The record agrees with replies that are collected after `before` was recorded. -/
structure Collecting (requestId : Int64) (before : List Event)
    (replies : List (String × ReceiveStage)) (f : Forwarder (σ × List Event)) : Prop where
  acknowledged : (f.network.2.filterMap (Event.acknowledgedOn requestId)).Perm
    (replies.filterMap collectedOn)
  written : ∀ frame, f.network.2.filterMap (Event.writtenOn frame) =
    before.filterMap (Event.writtenOn frame)
  before_subset : before ⊆ f.network.2

theorem Collecting.advance {requestId : Int64} {before : List Event}
    {replies : List (String × ReceiveStage)} {f : Forwarder (σ × List Event)} {i : Nat}
    {address : String} {stage : ReceiveStage} (h : Collecting requestId before replies f)
    (hi : replies[i]? = some (address, stage)) :
    Collecting requestId before
      (replies.set i (address, (Receiving.advance net.recorded requestId address stage f).1))
      (Receiving.advance net.recorded requestId address stage f).2 := by
  rcases stage with (_ | link) | ⟨link, fault⟩
  · have hperm := filterMap_set_perm (f := collectedOn)
      (address, .settled none (some (.unlinked address))) hi rfl
    exact ⟨h.acknowledged.trans hperm.symm, h.written, h.before_subset⟩
  · obtain ⟨s, hrecord, hnone⟩ := exists_offered_receiveOne net requestId address link f
    simp only [Receiving.advance]
    refine ⟨?_, fun frame ↦ ?_, fun e he ↦ ?_⟩
    · have hevent : [Event.offered link s].filterMap (Event.acknowledgedOn requestId) =
          (collectedOn (address, .settled (some link)
            (f.receiveOne net.recorded requestId address link).1)).toList := by
        rcases hfault : (f.receiveOne net.recorded requestId address link).1 with _ | fault
        · simp [Event.acknowledgedOn, hnone.mp hfault, collectedOn]
        · have hrefused : ¬ acknowledges requestId s = true := fun ha ↦ by simp [hnone.mpr ha] at hfault
          simp [Event.acknowledgedOn, hrefused, collectedOn]
      rw [hrecord, ← List.singleton_append, List.filterMap_append, hevent]
      exact (h.acknowledged.append_left _).trans (filterMap_set_perm _ hi rfl).symm
    · rw [hrecord, List.filterMap_cons_none rfl, h.written]
    · rw [hrecord]
      exact List.mem_cons_of_mem _ (h.before_subset he)
  · simp only [Receiving.advance]
    rwa [set_of_getElem?_eq hi]

/-- Replies that are collected on a network on which none was read so far. -/
theorem collecting_collected (net : Network σ) (schedule : List Nat) (requestId : Int64)
    (followers : List String) (slots : List (Option Link)) {f : Forwarder (σ × List Event)}
    (hf : f.network.2.filterMap (Event.acknowledgedOn requestId) = []) :
    Collecting requestId f.network.2
      (f.collected net.recorded schedule requestId followers slots).1
      (f.collected net.recorded schedule requestId followers slots).2 := by
  have hnone : (Forwarder.pending followers slots).filterMap collectedOn = [] := by
    simp [Forwarder.pending, collectedOn]
  have hstart : Collecting requestId f.network.2 (Forwarder.pending followers slots) f :=
    ⟨by rw [hf, hnone], fun _ ↦ rfl, List.Subset.refl _⟩
  exact runAll_induction (P := Collecting requestId f.network.2)
    (fun l f i address stage hi h ↦ h.advance hi) _ hstart

end Follower

end ReplicaChain
