import ReplicaChain.Proofs.Follower.LinkPool
import ReplicaChain.Proofs.Node.Projection
import ReplicaChain.Proofs.Wire.Decoding

/-!
# Transcripts of exchanges

A network can be made to write down everything that it does.  The exchanges of a packet advance in any
order, so their parts of the transcript are mixed; but each exchange has a part of its own, which tells
how it ended.  A relay takes an idle link or dials one, writes the frame once, and ends with the fault of
the step that failed.  A reply is taken off the link in the slot once, and nothing is read without a link.

The induction carries, beside each exchange, the part of the transcript that belongs to it.
-/

namespace ReplicaChain

open Follower
open Wire (Packet)

variable {ω σ : Type}

/-! ## Transcripts -/

inductive Response where
  /-- It decided how a dial turns out. -/
  | dialed (link : Link) (outcome : Attempt)
  | wrote (link : Link) (bytes : ByteArray) (outcome : Except IoFault Unit)
  /-- It offered a reader what a link delivers. -/
  | offered (link : Link) (s : Source)
  /-- It took back what a reader left of it. -/
  | left (link : Link) (rest : Source)
  | closed (link : Link)

/-- The network that behaves like `net` and writes down what it does, the newest first. -/
def Network.transcribed (net : Network σ) : Network (σ × List Response) where
  dial link t :=
    let dialed := net.dial link t.1
    (dialed.1, dialed.2, dialed.1.elim t.2 fun a ↦ .dialed link a :: t.2)
  await link t :=
    let awaited := net.await link t.1
    (awaited.1, awaited.2, .dialed link awaited.1 :: t.2)
  write link b t :=
    let wrote := net.write link b t.1
    (wrote.1, wrote.2, .wrote link b wrote.1 :: t.2)
  incoming link t :=
    let incoming := net.incoming link t.1
    (incoming.1, incoming.2, .offered link incoming.1 :: t.2)
  leave link rest t := (net.leave link rest t.1, .left link rest :: t.2)
  close link t := (net.close link t.1, .closed link :: t.2)

/-- Writing a transcript changes nothing else. -/
theorem Network.transcribed_projects (net : Network σ) :
    net.transcribed.Projects Prod.fst net := by
  constructor <;> intros <;> rfl

namespace Follower

/-! ## Parts of a transcript -/

/-- What belongs to one of the exchanges that advance together: the idle link that was taken for it and
what the network did in it, the oldest first. -/
structure Part where
  taken : Option Link
  responses : List Response

/-- The part of an exchange in which nothing has happened yet. -/
def Part.nothing : Part :=
  ⟨none, []⟩

/-- The idle link of a part, with the address that it was taken for. -/
def Part.idle (address : String) (part : Part) : List (String × Link) :=
  (part.taken.map (address, ·)).toList

/-- What an advance of one exchange does to that which all exchanges share, is noted in its part. -/
structure Part.Notes (address : String) (part part' : Part) (f f' : Forwarder (σ × List Response)) :
    Prop where
  transcript : (part.responses ++ f'.network.2).Perm (part'.responses ++ f.network.2)
  idle : (part'.idle address ++ f'.links.idle).Perm (part.idle address ++ f.links.idle)
  failures : f'.failures = f.failures

/-- An advance that neither uses the network nor takes an idle link. -/
theorem Part.Notes.of_eq {address : String} {part : Part} {f f' : Forwarder (σ × List Response)}
    (hnetwork : f'.network.2 = f.network.2) (hidle : f'.links.idle = f.links.idle)
    (hfailures : f'.failures = f.failures) : part.Notes address part f f' where
  transcript := by rw [hnetwork]
  idle := by rw [hidle]
  failures := hfailures

/-- An advance in which the network responds and no idle link is taken. -/
theorem Part.Notes.of_cons {address : String} {taken : Option Link} {responses : List Response}
    {f f' : Forwarder (σ × List Response)} (response : Response)
    (hnetwork : f'.network.2 = response :: f.network.2) (hidle : f'.links.idle = f.links.idle)
    (hfailures : f'.failures = f.failures) :
    Part.Notes address ⟨taken, responses⟩ ⟨taken, responses ++ [response]⟩ f f' where
  transcript := by
    rw [hnetwork, List.append_assoc]
    rfl
  idle := by
    rw [hidle]
    rfl
  failures := hfailures

section Runs

variable {St : Type} {stands : String → St → Part → Prop} {before : Forwarder (σ × List Response)}
  {advance : String → St → Forwarder (σ × List Response) → St × Forwarder (σ × List Response)}

/-- The parts of the exchanges are what the exchanges have done since `before`, all of it, and how each
of them stands goes with its part. -/
structure Divided (stands : String → St → Part → Prop) (before : Forwarder (σ × List Response))
    (l : List ((String × St) × Part)) (f : Forwarder (σ × List Response)) : Prop where
  stands : ∀ r ∈ l, stands r.1.1 r.1.2 r.2
  transcript : f.network.2.Perm (l.flatMap (·.2.responses) ++ before.network.2)
  idle : before.links.idle.Perm (l.flatMap (fun r ↦ r.2.idle r.1.1) ++ f.links.idle)
  failures : f.failures = before.failures

/-- An advance of one exchange changes its part alone. -/
theorem Divided.set {l : List ((String × St) × Part)} {f f' : Forwarder (σ × List Response)} {i : Nat}
    {address : String} {stage stage' : St} {part part' : Part} (h : Divided stands before l f)
    (hi : l[i]? = some ((address, stage), part)) (hstands : stands address stage' part')
    (hnotes : part.Notes address part' f f') :
    Divided stands before (l.set i ((address, stage'), part')) f' where
  stands r hr := by
    rcases List.mem_or_eq_of_mem_set hr with hr | rfl
    · exact h.stands r hr
    · exact hstands
  transcript := by
    obtain ⟨others, hold, hnew, -⟩ :=
      exists_flatMap_perm (fun r : (String × St) × Part ↦ r.2.responses) hi
    refine (List.perm_append_left_iff part.responses).mp ?_
    calc
      (part.responses ++ f'.network.2).Perm (part'.responses ++ f.network.2) := hnotes.transcript
      List.Perm _ (part'.responses ++ ((part.responses ++ others) ++ before.network.2)) :=
        (h.transcript.trans (hold.append_right _)).append_left _
      List.Perm _ (part.responses ++ ((part'.responses ++ others) ++ before.network.2)) := by
        simp only [List.append_assoc]
        exact List.perm_append_comm_assoc _ _ _
      List.Perm _ _ := ((hnew ((address, stage'), part')).symm.append_right _).append_left _
  idle := by
    obtain ⟨others, hold, hnew, -⟩ :=
      exists_flatMap_perm (fun r : (String × St) × Part ↦ r.2.idle r.1.1) hi
    calc
      before.links.idle.Perm ((part.idle address ++ others) ++ f.links.idle) :=
        h.idle.trans (hold.append_right _)
      List.Perm _ (others ++ (part.idle address ++ f.links.idle)) := by
        rw [← List.append_assoc]
        exact List.perm_append_comm.append_right _
      List.Perm _ (others ++ (part'.idle address ++ f'.links.idle)) := hnotes.idle.symm.append_left _
      List.Perm _ ((part'.idle address ++ others) ++ f'.links.idle) := by
        rw [← List.append_assoc]
        exact List.perm_append_comm.append_right _
      List.Perm _ _ := (hnew ((address, stage'), part')).symm.append_right _
  failures := hnotes.failures.trans h.failures

/-- Nothing has happened yet in exchanges that are about to start. -/
theorem divided_nothing {l : List (String × St)} (hl : ∀ r ∈ l, stands r.1 r.2 .nothing) :
    Divided stands before (l.map (·, .nothing)) before where
  stands r hr := by
    obtain ⟨r, hr', rfl⟩ := List.mem_map.mp hr
    exact hl r hr'
  transcript := by
    have hnothing : l.flatMap (fun _ ↦ Part.nothing.responses) = [] :=
      List.flatMap_eq_nil_iff.mpr fun _ _ ↦ rfl
    rw [List.flatMap_map, hnothing]
    rfl
  idle := by
    have hnothing : l.flatMap (fun r ↦ Part.nothing.idle r.1) = [] :=
      List.flatMap_eq_nil_iff.mpr fun _ _ ↦ rfl
    rw [List.flatMap_map, hnothing]
    rfl
  failures := rfl

variable (stands before advance) in
/-- When every advance is noted, the whole run is divided into parts. -/
theorem exists_divided (hadvance : ∀ address stage part f, stands address stage part →
      ∃ part', stands address (advance address stage f).1 part' ∧
        part.Notes address part' f (advance address stage f).2)
    (schedule : List Nat) {l : List (String × St)} (hl : ∀ r ∈ l, stands r.1 r.2 .nothing) :
    ∃ l', l'.map Prod.fst = (runAll advance schedule (l, before)).1 ∧
      Divided stands before l' (runAll advance schedule (l, before)).2 := by
  have hstart : (l.map (·, Part.nothing)).map Prod.fst = l := by
    rw [List.map_map]
    exact List.map_id l
  refine runAll_induction (s := (l, before))
    (P := fun exchanges f ↦ ∃ l', l'.map Prod.fst = exchanges ∧ Divided stands before l' f)
    (fun exchanges f i address stage hi ⟨l', hl', h⟩ ↦ ?_) schedule ⟨_, hstart, divided_nothing hl⟩
  subst hl'
  rw [List.getElem?_map, Option.map_eq_some_iff] at hi
  obtain ⟨⟨_, part⟩, hi, rfl⟩ := hi
  obtain ⟨part', hstands, hnotes⟩ :=
    hadvance address stage part f (h.stands _ (List.mem_of_getElem? hi))
  exact ⟨_, List.map_set, h.set hi hstands hnotes⟩

end Runs

/-! ## Exchanges -/

/-- A whole exchange with a follower: its part, and the link and the fault in which it ended. -/
structure Exchange extends Part where
  link : Option Link
  fault : Option Fault

def Exchange.result (e : Exchange) : Option Link × Option Fault :=
  (e.link, e.fault)

/-- The exchanges with some followers are what made `after` of `before`. -/
structure Exchange.Make (followers : List String) (exchanges : List Exchange)
    (before after : Forwarder (σ × List Response)) : Prop where
  transcript : after.network.2.Perm (exchanges.flatMap (·.responses) ++ before.network.2)
  idle : before.links.idle.Perm
    ((followers.zip exchanges).flatMap (fun r ↦ r.2.idle r.1) ++ after.links.idle)
  failures : after.failures = before.failures

/-- When a run is over, each part is that of an exchange. -/
theorem Divided.make {St : Type} {stands : String → St → Part → Prop}
    {before f : Forwarder (σ × List Response)} {l : List ((String × St) × Part)}
    (h : Divided stands before l f) (result : St → Option Link × Option Fault) :
    Exchange.Make (l.map (·.1.1))
      (l.map fun r ↦ ⟨r.2, (result r.1.2).1, (result r.1.2).2⟩) before f where
  transcript := by
    rw [List.flatMap_map]
    exact h.transcript
  idle := by
    rw [List.zip_map', List.flatMap_map]
    exact h.idle
  failures := h.failures

/-! ## Relays -/

def dialFault : Attempt → Option Fault
  | .succeeded => none
  | .failed fault => some (.io fault)
  | .expired => some (.timedOut "follower connect")

def writeFault : Except IoFault Unit → Option Fault
  | .ok _ => none
  | .error fault => some (.io fault)

/-- How a frame is relayed to a follower: no link is to be had, or a dial fails, or the frame is written
once, on an idle link or on one that was dialed. -/
inductive Relayed (frame : ByteArray) (address : String) : Exchange → Prop where
  | refused {fault : Fault} (hfault : fault = .linksDraining ∨ fault = .linksExhausted) :
    Relayed frame address ⟨⟨none, []⟩, none, some fault⟩
  | undialed {link : Link} {a : Attempt} (haddress : link.address = address) (ha : a ≠ .succeeded) :
    Relayed frame address ⟨⟨none, [.dialed link a]⟩, none, dialFault a⟩
  | reused {link : Link} (outcome : Except IoFault Unit) :
    Relayed frame address ⟨⟨some link, [.wrote link frame outcome]⟩, some link, writeFault outcome⟩
  | dialed {link : Link} (outcome : Except IoFault Unit) (haddress : link.address = address) :
    Relayed frame address ⟨⟨none, [.dialed link .succeeded, .wrote link frame outcome]⟩, some link,
      writeFault outcome⟩

/-- What belongs to a relay that has come to a stage. -/
inductive SendStage.Stands (frame : ByteArray) (address : String) : SendStage → Part → Prop where
  | waiting : Stands frame address .waiting .nothing
  | dialing {link : Link} (haddress : link.address = address) :
    Stands frame address (.dialing link) .nothing
  | reused {link : Link} : Stands frame address (.connected link) ⟨some link, []⟩
  | dialed {link : Link} (haddress : link.address = address) :
    Stands frame address (.connected link) ⟨none, [.dialed link .succeeded]⟩
  | ended {part : Part} {link : Option Link} {fault : Option Fault}
      (h : Relayed frame address ⟨part, link, fault⟩) :
    Stands frame address (.settled link fault) part

variable {net : Network σ} {frame : ByteArray} {address : String} {stage : SendStage} {part : Part}

/-- A dial that is decided takes a relay on, or ends it. -/
theorem SendStage.Stands.conclude (link : Link) (haddress : link.address = address) (a : Attempt)
    {f f' : Forwarder (σ × List Response)} (hnetwork : f'.network.2 = .dialed link a :: f.network.2)
    (hidle : f'.links.idle = f.links.idle) (hfailures : f'.failures = f.failures) :
    ∃ part, Stands frame address (Sending.stageOfLink (f'.conclude link a).1) part ∧
      Part.nothing.Notes address part f (f'.conclude link a).2 := by
  refine ⟨⟨none, [.dialed link a]⟩, ?_, .of_cons _ ?_ ?_ ?_⟩
  · cases a with
    | succeeded => exact .dialed haddress
    | failed fault => exact .ended (.undialed (a := .failed fault) haddress nofun)
    | expired => exact .ended (.undialed (a := .expired) haddress nofun)
  all_goals cases a <;> assumption

/-- A link that was obtained is used for one write. -/
theorem Sending.advance_connected (net : Network σ) (frame : ByteArray) (address : String) (link : Link)
    (f : Forwarder σ) :
    advance net frame address (.connected link) f =
      let wrote := net.write link frame f.network
      (.settled (some link) (writeFault wrote.1),
        { f with network := wrote.2, relays := f.relays + 1 }) := by
  rcases hw : net.write link frame f.network with ⟨_ | _, network⟩ <;>
    simp only [advance, hw, writeFault]

/-- What an advance of a relay does is noted. -/
theorem SendStage.Stands.advance (h : SendStage.Stands frame address stage part)
    (f : Forwarder (σ × List Response)) :
    ∃ part', Stands frame address (Sending.advance net.transcribed frame address stage f).1 part' ∧
      part.Notes address part' f (Sending.advance net.transcribed frame address stage f).2 := by
  cases h with
  | waiting =>
    rcases hr : f.links.request address with ⟨link | link | fault, links⟩
    · simp only [Sending.advance, hr]
      exact ⟨_, .reused, .refl _, (LinkPool.idle_perm_of_request_idle hr).symm, rfl⟩
    · obtain ⟨rfl, -, -, rfl⟩ := LinkPool.request_toDial hr
      rcases hd : net.dial ⟨f.links.nextNumber, address⟩ f.network.1 with ⟨_ | a, network⟩
      · simp only [Sending.advance, hr, Network.transcribed, hd]
        exact ⟨_, .dialing rfl, .of_eq rfl rfl rfl⟩
      · simp only [Sending.advance, hr, Network.transcribed, hd]
        refine conclude ⟨f.links.nextNumber, address⟩ rfl a ?_ ?_ ?_ <;> rfl
    · simp only [Sending.advance, hr]
      exact ⟨_, .ended (.refused (LinkPool.fault_of_request_refused hr)),
        .of_eq rfl (LinkPool.request_refused hr).1 rfl⟩
  | dialing haddress => refine conclude _ haddress _ ?_ ?_ ?_ <;> rfl
  | reused =>
    rw [Sending.advance_connected]
    exact ⟨_, .ended (.reused _), .of_cons _ rfl rfl rfl⟩
  | dialed haddress =>
    rw [Sending.advance_connected]
    exact ⟨_, .ended (.dialed _ haddress), .of_cons _ rfl rfl rfl⟩
  | ended h => exact ⟨_, .ended h, .of_eq rfl rfl rfl⟩

/-- The relays of a packet, each by itself, are all that happens while it is sent. -/
theorem exists_relays (net : Network σ) (schedule : List Nat) (frame : ByteArray)
    (followers : List String) (f : Forwarder (σ × List Response)) :
    ∃ relays, List.Forall₂ (Relayed frame) followers relays ∧
      (f.relayed net.transcribed schedule frame followers).1.map (Sending.result ·.2) =
        relays.map Exchange.result ∧
      Exchange.Make followers relays f (f.relayed net.transcribed schedule frame followers).2 := by
  obtain ⟨l, hl, h⟩ := exists_divided (SendStage.Stands frame) f
    (Sending.advance net.transcribed frame) (l := followers.map (·, .waiting))
    (fun address stage part f h ↦ h.advance f) (schedule ++ Sending.rounds followers.length) (by
      intro r hr
      obtain ⟨address, -, rfl⟩ := List.mem_map.mp hr
      exact .waiting)
  have hfollowers : l.map (·.1.1) = followers := by
    have h := Forwarder.map_fst_relayed net.transcribed schedule frame followers f
    rw [Forwarder.relayed, ← hl, List.map_map] at h
    exact h
  refine ⟨_, ?_, ?_, hfollowers ▸ h.make Sending.result⟩
  · rw [← hfollowers, List.forall₂_map_left_iff, List.forall₂_map_right_iff, List.forall₂_same]
    rintro ⟨⟨address, stage⟩, part⟩ hr
    have hmem := List.mem_map_of_mem (f := Prod.fst) hr
    rw [hl] at hmem
    obtain ⟨link, fault, rfl⟩ := Forwarder.settled_of_mem_relayed hmem
    cases h.stands _ hr with
    | ended h => exact h
  · rw [Forwarder.relayed, ← hl, List.map_map, List.map_map]
    rfl

/-! ## Replies -/

/-- The fault of a reply that is read off a source: it cannot be read, or it does not acknowledge the
request. -/
def answerFault (requestId : Int64) (address : String) (s : Source) : Option Fault :=
  match (Packet.decode .standard s).1 with
  | .error fault => some fault
  | .ok reply => checkReply address requestId reply

/-- How the reply of a follower is collected, by what is in its slot: without a link nothing is read, and
with one the source is read once, as far as one reply goes. -/
inductive Collected (requestId : Int64) : String × Option Link → Exchange → Prop where
  | unlinked {address : String} :
    Collected requestId (address, none) ⟨.nothing, none, some (.unlinked address)⟩
  | read {address : String} {link : Link} (s : Source) :
    Collected requestId (address, some link)
      ⟨⟨none, [.offered link s, .left link (Packet.decode .standard s).2.2]⟩, some link,
        answerFault requestId address s⟩

/-- A reply is collected from the link in the slot, which it leaves there. -/
theorem links_of_collected {requestId : Int64} {asked : List (String × Option Link)}
    {replies : List Exchange} (h : List.Forall₂ (Collected requestId) asked replies) :
    replies.map (·.link) = asked.map Prod.snd := by
  induction h with
  | nil => rfl
  | cons h _ ih =>
    rw [List.map_cons, List.map_cons, ih]
    cases h <;> rfl

/-- What belongs to a reply that has come to a stage. -/
inductive ReceiveStage.Stands (requestId : Int64) (address : String) : ReceiveStage → Part → Prop where
  | pending {link : Option Link} : Stands requestId address (.pending link) .nothing
  | ended {part : Part} {link : Option Link} {fault : Option Fault}
      (h : Collected requestId (address, link) ⟨part, link, fault⟩) :
    Stands requestId address (.settled link fault) part

/-- Reading a reply does not depend on the buffers that are at hand. -/
theorem Forwarder.receiveOne_transcribed (net : Network σ) (requestId : Int64) (address : String)
    (link : Link) (f : Forwarder (σ × List Response)) :
    let incoming := net.incoming link f.network.1
    let received := f.receiveOne net.transcribed requestId address link
    received.1 = answerFault requestId address incoming.1 ∧
      received.2.network.2 = .left link (Packet.decode .standard incoming.1).2.2 ::
        .offered link incoming.1 :: f.network.2 ∧
      received.2.links = f.links ∧ received.2.failures = f.failures := by
  intro incoming
  have hpool := Packet.decode_pool .standard f.buffers incoming.1
  simp only [incoming, Forwarder.receiveOne, Network.transcribed, answerFault] at hpool ⊢
  rcases hd : Packet.decode f.buffers (net.incoming link f.network.1).1 with
    ⟨fault | reply, pool, rest⟩ <;>
  · rw [hd] at hpool
    simp [hpool]

/-- What an advance of a reply does is noted. -/
theorem ReceiveStage.Stands.advance {requestId : Int64} {stage : ReceiveStage}
    (h : ReceiveStage.Stands requestId address stage part) (f : Forwarder (σ × List Response)) :
    ∃ part',
      Stands requestId address (Receiving.advance net.transcribed requestId address stage f).1 part' ∧
      part.Notes address part' f (Receiving.advance net.transcribed requestId address stage f).2 := by
  cases h with
  | @pending link =>
    cases link with
    | none => exact ⟨_, .ended .unlinked, .of_eq rfl rfl rfl⟩
    | some link =>
      obtain ⟨hfault, hnetwork, hlinks, hfailures⟩ :=
        f.receiveOne_transcribed net requestId address link
      rw [Receiving.advance, hfault]
      refine ⟨_, .ended (.read _), ?_, ?_, hfailures⟩
      · rw [hnetwork]
        exact List.Perm.swap _ _ _
      · rw [hlinks]
        rfl
  | ended h => exact ⟨_, .ended h, .of_eq rfl rfl rfl⟩

/-- The replies to a packet, each by itself, are all that happens while they are collected. -/
theorem exists_replies (net : Network σ) (schedule : List Nat) (requestId : Int64)
    {followers : List String} {slots : List (Option Link)} (hslots : slots.length = followers.length)
    (f : Forwarder (σ × List Response)) :
    ∃ replies, List.Forall₂ (Collected requestId) (followers.zip slots) replies ∧
      (f.collected net.transcribed schedule requestId followers slots).1.map (Receiving.result ·.2) =
        replies.map Exchange.result ∧
      Exchange.Make followers replies f
        (f.collected net.transcribed schedule requestId followers slots).2 := by
  obtain ⟨l, hl, h⟩ := exists_divided (ReceiveStage.Stands requestId) f
    (Receiving.advance net.transcribed requestId) (l := Forwarder.pending followers slots)
    (fun address stage part f h ↦ h.advance f)
    (schedule ++ List.range (Forwarder.pending followers slots).length) (by
      intro r hr
      obtain ⟨slot, -, rfl⟩ := List.mem_map.mp hr
      exact .pending)
  have hfollowers : l.map (·.1.1) = followers := by
    have h :=
      Forwarder.map_fst_collected net.transcribed schedule requestId f (Nat.le_of_eq hslots.symm)
    rw [Forwarder.collected, ← hl, List.map_map] at h
    exact h
  have hlinks : l.map (·.1.2.link) = slots := by
    have h :=
      Forwarder.map_link_collected net.transcribed schedule requestId f (Nat.le_of_eq hslots)
    rw [Forwarder.collected, ← hl, List.map_map] at h
    exact h
  refine ⟨_, ?_, ?_, hfollowers ▸ h.make Receiving.result⟩
  · rw [← hfollowers, ← hlinks, List.zip_map', List.forall₂_map_left_iff, List.forall₂_map_right_iff,
      List.forall₂_same]
    rintro ⟨⟨address, stage⟩, part⟩ hr
    have hmem := List.mem_map_of_mem (f := Prod.fst) hr
    rw [hl] at hmem
    obtain ⟨link, fault, rfl⟩ := Forwarder.settled_of_mem_collected hmem
    cases h.stands _ hr with
    | ended h => exact h
  · rw [Forwarder.collected, ← hl, List.map_map, List.map_map]
    rfl

end Follower

end ReplicaChain
