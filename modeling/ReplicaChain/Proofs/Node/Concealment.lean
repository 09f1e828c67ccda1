import Mathlib.Data.List.Forall2
import ReplicaChain.Node.Startup
import ReplicaChain.Proofs.Node.Likeness
import ReplicaChain.Proofs.Node.Projection
import ReplicaChain.Proofs.Wire.RoundTrip

/-!
# What replies do not show

A follower may write anything into its reply.  Of a reply that can be read only the request id and the result
count: neither what the client is told, nor the storage, nor the links of the node depend on the rest.  And a
storage may say in any words how its disk failed, of which the client learns nothing.
-/

namespace ReplicaChain

open Follower
open Wire (Packet)

variable {ω ω' σ τ : Type}

/-! ## Environments and nodes that differ in one thing -/

def Environment.withEngine (engine : Extent.Engine ω') (env : Environment ω σ) : Environment ω' σ where
  cluster := env.cluster
  engine
  network := env.network
  now := env.now
  elapsed := env.elapsed
  sendSchedule := env.sendSchedule
  receiveSchedule := env.receiveSchedule

def Node.withStore (store : ω') (n : Node ω σ) : Node ω' σ where
  store
  forwarder := n.forwarder
  collector := n.collector
  shutdown := n.shutdown
  packetsReceived := n.packetsReceived
  packetsFailed := n.packetsFailed

theorem Extent.Engine.alike_self (engine : Engine ω) : engine.Alike Eq engine where
  answer_eq _ _ _ h := by rw [h]
  keeps _ _ _ h := by rw [h]

theorem SameReply.refl (r : Except Fault Packet) : SameReply r r := by
  cases r with
  | error fault => exact .unread fault
  | ok p => exact .read rfl rfl

theorem Network.alike_self (net : Network σ) : net.Alike Eq net where
  dial _ _ _ h := by subst h; exact ⟨rfl, rfl⟩
  await _ _ _ h := by subst h; exact ⟨rfl, rfl⟩
  write _ _ _ _ h := by subst h; exact ⟨rfl, rfl⟩
  answer _ _ _ h := by subst h; exact ⟨.refl _, rfl⟩
  close _ _ _ h := by rw [h]

theorem Environment.alike_withNetwork {R : σ → τ → Prop} {env : Environment ω σ} {net : Network τ}
    (h : env.network.Alike R net) : env.Alike Eq R (env.withNetwork net) :=
  ⟨rfl, env.engine.alike_self, h, rfl, rfl, rfl, rfl⟩

theorem Environment.alike_withEngine {S : ω → ω' → Prop} {env : Environment ω σ}
    {engine : Extent.Engine ω'} (h : env.engine.Alike S engine) : env.Alike S Eq (env.withEngine engine) :=
  ⟨rfl, h, env.network.alike_self, rfl, rfl, rfl, rfl⟩

theorem Handling.resembles_map {R : σ → τ → Prop} {x : Handling ω σ} {t : τ}
    (h : R x.node.forwarder.network t) : x.Resembles Eq R (x.map fun _ ↦ t) :=
  .mk _ _ (.mk _ _ _ _ rfl (.mk _ _ _ _ _ h))

theorem Node.resembles_withStore {S : ω → ω' → Prop} {n : Node ω σ} {w : ω'} (h : S n.store w) :
    n.Resembles S Eq (n.withStore w) :=
  .mk _ _ _ _ h (.mk _ _ _ _ _ rfl)

/-! ## Networks by turns -/

/-- What happens when a node turns to the network: how a dial, the wait for it or a write turns out, or what
a link delivers. -/
inductive Turn where
  | dialed (attempt : Option Attempt)
  | awaited (attempt : Attempt)
  | wrote (outcome : Except IoFault Unit)
  | delivered (s : Source)

/-- Two turns are the same up to what is in a reply besides its request id and its result. -/
inductive SameTurn : Turn → Turn → Prop where
  | dialed (attempt : Option Attempt) : SameTurn (.dialed attempt) (.dialed attempt)
  | awaited (attempt : Attempt) : SameTurn (.awaited attempt) (.awaited attempt)
  | wrote (outcome : Except IoFault Unit) : SameTurn (.wrote outcome) (.wrote outcome)
  | delivered {s s' : Source}
    (h : SameReply (Packet.decode .standard s).1 (Packet.decode .standard s').1) :
    SameTurn (.delivered s) (.delivered s')

/-- The network on which one thing after another happens.  A turn that does not fit what the node does is lost,
and the node waits in vain. -/
def Network.ofTurns : Network (List Turn) where
  dial _
    | .dialed attempt :: turns => (attempt, turns)
    | turns => (some .expired, turns.tail)
  await _
    | .awaited attempt :: turns => (attempt, turns)
    | turns => (.expired, turns.tail)
  write _ _
    | .wrote outcome :: turns => (outcome, turns)
    | turns => (.error ⟨.timedOut, IoKind.description .timedOut⟩, turns.tail)
  incoming _
    | .delivered s :: turns => (s, turns)
    | turns => (⟨[], .silent⟩, turns.tail)
  leave _ _ turns := turns
  close _ turns := turns

/-- What a node meets in the course of a run is a list of turns, and turns that are the same make networks that
do alike. -/
theorem Network.ofTurns_alike : Network.ofTurns.Alike (List.Forall₂ SameTurn) Network.ofTurns where
  dial link turns turns' h := by
    cases h with
    | nil => exact ⟨rfl, .nil⟩
    | cons hturn hturns => cases hturn <;> exact ⟨rfl, hturns⟩
  await link turns turns' h := by
    cases h with
    | nil => exact ⟨rfl, .nil⟩
    | cons hturn hturns => cases hturn <;> exact ⟨rfl, hturns⟩
  write link b turns turns' h := by
    cases h with
    | nil => exact ⟨rfl, .nil⟩
    | cons hturn hturns => cases hturn <;> exact ⟨rfl, hturns⟩
  answer link turns turns' h := by
    cases h with
    | nil => exact ⟨.refl _, .nil⟩
    | cons hturn hturns =>
      cases hturn with
      | delivered hreply => exact ⟨hreply, hturns⟩
      | _ => exact ⟨.refl _, hturns⟩
  close link turns turns' h := h

/-! ## The two laws -/

/-- Neither the bodies of followers' replies nor the details of disk faults show.

When a packet is handled on two networks whose replies have the same request ids and the same results, and are
otherwise whatever they are, it is answered by the same reply, and the storage and the links are the same
afterwards.

When a node works on either of two storages that differ only in the detail of their disk faults, each packet
has the same reply, and every connection gets the same bytes from it. -/
theorem replies_conceal_details (env : Environment ω σ) :
    (∀ (R : σ → τ → Prop) (net : Network τ), env.network.Alike R net →
      ∀ (x : Handling ω σ) (t : τ), R x.node.forwarder.network t →
        let run := x.process env
        let other := (x.map fun _ ↦ t).process (env.withNetwork net)
        run.1 = other.1 ∧ run.2.request = other.2.request ∧ run.2.client = other.2.client ∧
          run.2.node.store = other.2.node.store ∧
          run.2.node.forwarder.links = other.2.node.forwarder.links) ∧
    ∀ (S : ω → ω' → Prop) (engine : Extent.Engine ω'), env.engine.Alike S engine →
      ∀ (n : Node ω σ) (w : ω'), S n.store w →
        (∀ (r : Request) (client : Sink),
          let run := Handling.process env ⟨r, n, client⟩
          let other := Handling.process (env.withEngine engine) ⟨r, n.withStore w, client⟩
          run.1 = other.1 ∧ run.2.request = other.2.request ∧ run.2.client = other.2.client) ∧
        ∀ (s : Source) (client : Sink),
          let served := n.serve env s client
          let other := (n.withStore w).serve (env.withEngine engine) s client
          served.1 = other.1 ∧ served.2.2 = other.2.2 := by
  constructor
  · intro R net hnet x t ht
    have henv : env.Alike Eq R (env.withNetwork net) := Environment.alike_withNetwork hnet
    obtain ⟨hfault, hafter⟩ := (Handling.resembles_map ht).process henv
    exact ⟨hfault, hafter.request_eq, hafter.client_eq, hafter.node.store, hafter.node.links_eq⟩
  · intro S engine hengine n w hw
    have henv : env.Alike S Eq (env.withEngine engine) := Environment.alike_withEngine hengine
    have hnode : n.Resembles S Eq (n.withStore w) := Node.resembles_withStore hw
    constructor
    · intro r client
      obtain ⟨hfault, hafter⟩ := (Handling.Resembles.mk r client hnode).process henv
      exact ⟨hfault, hafter.request_eq, hafter.client_eq⟩
    · intro s client
      obtain ⟨hfault, -, hclient⟩ := hnode.serve henv s client
      exact ⟨hfault, hclient⟩

/-- The engine whose disk always fails. -/
def Extent.Engine.failing (detail : String) : Extent.Engine Unit := fun _ w ↦
  (.error (.disk detail), w)

/-- A follower refuses a packet in two ways, with the same result and with replies that differ in their body and
their partition; and a disk fails in two ways. -/
theorem replies_conceal_details_refused :
    let p := (Packet.createExtent 0 1 7 1).withFollowers "0:b:2,".toUTF8 1
    let sector := p.reply .disk (Bytes.ofText "sector 7")
    let worn := { p with header.partition := 9 }.reply .disk (Bytes.ofText "the disk is worn out")
    let turns (reply : Packet) : List Turn :=
      [.dialed (some .succeeded), .wrote (.ok ()), .delivered (.ofBytes reply.frame)]
    let env := Node.environment {} .ofTurns 0
    let x (reply : Packet) : Handling Extent.Store (List Turn) :=
      ⟨.ofPacket p, Node.ofSettings {} (turns reply), .unbounded⟩
    let broken (detail : String) := (Node.environment {} .unreachable 0).withEngine (.failing detail)
    let n : Node Unit Unit := (Node.ofSettings {} ()).withStore ()
    List.Forall₂ SameTurn (turns sector) (turns worn) ∧ sector.payload ≠ worn.payload ∧
      ((x sector).process env).2.request = ((x worn).process env).2.request ∧
      (Handling.process (broken "sector 7") ⟨.ofPacket p, n, .unbounded⟩).2.request =
        (Handling.process (broken "worn out") ⟨.ofPacket p, n, .unbounded⟩).2.request := by
  intro p sector worn turns env x broken n
  have hreply : SameReply (Packet.decode .standard (.ofBytes sector.frame)).1
      (Packet.decode .standard (.ofBytes worn.frame)).1 := by
    have hsector : sector.Fits := Packet.fits_reply ⟨rfl, rfl⟩ (by decide)
    have hworn : worn.Fits := Packet.fits_reply ⟨rfl, rfl⟩ (by decide)
    obtain ⟨_, _, hd, -⟩ := hsector.decode_frame .standard (s := .ofBytes sector.frame) (t := .empty) (by simp)
    obtain ⟨_, _, hd', -⟩ := hworn.decode_frame .standard (s := .ofBytes worn.frame) (t := .empty) (by simp)
    rw [hd, hd']
    exact .read rfl rfl
  have hturns : List.Forall₂ SameTurn (turns sector) (turns worn) :=
    .cons (.dialed _) (.cons (.wrote _) (.cons (.delivered hreply) .nil))
  have hdisk : (Extent.Engine.failing "sector 7").Alike (fun _ _ ↦ True) (.failing "worn out") :=
    ⟨fun _ _ _ _ ↦ rfl, fun _ _ _ _ ↦ trivial⟩
  have hworn : (x sector).map (fun _ ↦ turns worn) = x worn := rfl
  have henv : env.withNetwork .ofTurns = env := rfl
  have hbodies := (@replies_conceal_details _ Unit _ _ env).1 (List.Forall₂ SameTurn) .ofTurns
    Network.ofTurns_alike (x sector) (turns worn) hturns
  rw [hworn, henv] at hbodies
  have hn : n.withStore () = n := rfl
  have hbroken : (broken "sector 7").withEngine (.failing "worn out") = broken "worn out" := rfl
  have hdetails := (@replies_conceal_details _ _ _ Unit (broken "sector 7")).2 (fun _ _ ↦ True)
    (.failing "worn out") hdisk n () trivial
  rw [hn, hbroken] at hdetails
  obtain ⟨-, hrequest, -⟩ := hbodies
  obtain ⟨-, hrequest', -⟩ := hdetails.1 (.ofPacket p) .unbounded
  exact ⟨hturns, by decide +kernel, hrequest, hrequest'⟩

end ReplicaChain
