import ReplicaChain.Proofs.Cluster.Abreast

/-!
# All followers have one storage

Between two packets all followers of a node have the same storage, or are bound to: after a packet that
succeeded every follower has applied it, and after one that failed a follower may not have read it yet,
but then it makes no difference when it does.  A packet that names every follower once takes the
followers from the storage before it to the storage after it.
-/

namespace ReplicaChain.Cluster

open Follower (Forwarder Link relayFrame)
open Handling (Relayable applied)
open Wire (Packet)

variable {ω τ : Type} {engine : Extent.Engine ω} {addresses : List String} {store : ω}
  {w w' : World ω τ} {address : String} {f : Forwarder (World ω τ)}

/-! ## Between two packets -/

namespace World

/-- Every follower has read what was sent to it. -/
def Quiet (w : World ω τ) : Prop :=
  ∀ number line, w.lines number = some line → line.outbound = .empty

/-- A member has a storage, and keeps it even if it has yet to apply a packet. -/
def Level (engine : Extent.Engine ω) (w : World ω τ) (address : String) (store : ω) : Prop :=
  w.Settled address store ∨ ∃ p link answered, link.address = address ∧
    w.Told engine p store answered link ∧ (applied engine p.alone store).2 = store

theorem Level.store_eq (h : w.Level engine address store) : (w.members address).store = store := by
  rcases h with h | ⟨p, link, answered, rfl, htold, happlied⟩
  · exact h.store_eq
  · rw [htold.store_eq, happlied, ite_self]

theorem Level.settled (h : w.Level engine address store) (hw : w.Quiet) : w.Settled address store :=
  ⟨h.store_eq, fun number line hline _ ↦ hw number line hline⟩

theorem Level.keep (h : w.Level engine address store) (hw : w.Keeps engine none w') :
    w'.Level engine address store := by
  rcases h with h | ⟨p, link, answered, haddress, htold, happlied⟩
  · exact .inl (hw.settled address store (by simp) h)
  · obtain ⟨answered', htold'⟩ := hw.told p store answered link (by simp) htold
    exact .inr ⟨p, link, answered', haddress, htold', happlied⟩

end World

/-- The links of a node are in order, at most one goes to each follower, and all followers have a
storage. -/
structure Standing (engine : Extent.Engine ω) (addresses : List String) (store : ω)
    (f : Forwarder (World ω τ)) : Prop where
  atRest : AtRest f
  sparing : f.links.Sparing addresses []
  fair : f.network.Fair engine
  level : ∀ address ∈ addresses, f.network.Level engine address store

theorem Standing.of_eq {g : Forwarder (World ω τ)} (h : Standing engine addresses store f)
    (hlinks : g.links = f.links) (hnetwork : g.network = f.network) :
    Standing engine addresses store g where
  atRest := by
    rw [AtRest, hlinks, hnetwork]
    exact h.atRest
  sparing := hlinks ▸ h.sparing
  fair := hnetwork ▸ h.fair
  level := hnetwork ▸ h.level

/-- Before a packet is relayed, nobody was told of it. -/
theorem Standing.abreast (h : Standing engine addresses store f) (hw : f.network.Quiet) (p : Packet) :
    Abreast engine p store store addresses [] f.links f.network where
  tidy := h.atRest
  sparing := h.sparing
  fair := h.fair
  told _ hx := absurd hx List.not_mem_nil
  settled address ha _ := (h.level address ha).settled hw

/-! ## Settling the links of a packet -/

theorem keeps_settle (engine : Extent.Engine ω) (ok : Bool) (slots : List (String × Option Link))
    (f : Forwarder (World ω τ)) :
    f.network.Keeps engine none (slots.foldl (Handling.settle network ok) f).network := by
  induction slots generalizing f with
  | nil => exact .refl _
  | cons slot slots ih =>
    refine World.Keeps.trans ?_ (ih _)
    obtain ⟨address, _ | link⟩ := slot
    · exact .refl _
    · cases ok with
      | false => exact World.keeps_close link f.network
      | true =>
        simp only [Handling.settle, if_true, Forwarder.release]
        split
        · exact .refl _
        · exact World.keeps_close link f.network

theorem sparing_settle (ok : Bool) {phase : Phase} {slots : List (String × Option Link)}
    (h : f.links.Sparing addresses ((slots.filterMap (heldInSlot phase)).map (·.address))) :
    (slots.foldl (Handling.settle network ok) f).links.Sparing addresses [] := by
  induction slots generalizing f with
  | nil => exact h
  | cons slot slots ih =>
    obtain ⟨address, _ | link⟩ := slot
    · exact ih h
    · cases ok with
      | false => exact ih h.destroy
      | true => exact ih (h.release true)

section Handling

variable {env : Environment ω (World ω τ)} {x y : Handling ω (World ω τ)} {followers : List String}

/-- Finishing a packet keeps what was reached with it. -/
theorem standing_finish (henv : env.network = network) {ok : Bool} {phase : Phase}
    (hok : ok = true → phase = .clean) {p : Packet} {before rest : ω}
    (h : Abreast engine p before rest addresses
      ((x.request.followers.zip x.request.slots).filterMap (heldInSlot phase))
      x.node.forwarder.links x.node.forwarder.network)
    (hlevel : ∀ address ∈ addresses, x.node.forwarder.network.Level engine address store) :
    Standing engine addresses store (x.finish env ok).node.forwarder := by
  have hkeeps := keeps_settle engine ok (x.request.followers.zip x.request.slots)
    x.node.forwarder
  have hsparing := sparing_settle ok h.sparing
  rw [← henv] at hkeeps hsparing
  exact ⟨atRest_finish henv hok h.tidy, hsparing, hkeeps.fair h.fair,
    fun address ha ↦ (hlevel address ha).keep hkeeps⟩

/-- Every follower was told of `p` on the link in its slot. -/
structure Informed (engine : Extent.Engine ω) (p : Packet) (before : ω) (addresses : List String)
    (y : Handling ω (World ω τ)) : Prop where
  length_eq : y.request.slots.length = y.request.followers.length
  linked : ∀ slot ∈ y.request.slots, slot.isSome
  names : addresses ⊆ y.request.followers
  abreast : Abreast engine p before before addresses
    ((y.request.followers.zip y.request.slots).filterMap (heldInSlot (.asked p)))
    y.node.forwarder.links y.node.forwarder.network

theorem Informed.exists_held {engine : Extent.Engine ω} {p : Packet} {before : ω}
    (h : Informed engine p before addresses y) (ha : address ∈ addresses) :
    ∃ x ∈ (y.request.followers.zip y.request.slots).filterMap (heldInSlot (.asked p)),
      x.phase = .asked p ∧ x.address = address :=
  Cluster.exists_held (.asked p) h.length_eq h.linked (h.names ha)

/-- A packet that succeeded at the node succeeds at every follower that was told of it, and all of them
have applied it in the end. -/
theorem Informed.acknowledged {p : Packet} {before : ω} (henv : env.network = network)
    (h : Informed env.engine p before addresses y)
    (hpacket : y.request.packet = (applied env.engine p before).1)
    (hok : (applied env.engine p before).1.header.result = .ok)
    (hsize : (applied env.engine p before).1.data.size ≤ Wire.maxPayloadSize) :
    ∃ results f, y.conclude env none = (y.exchanged results f).finish env true ∧
      Standing env.engine addresses (applied env.engine p before).2
        ((y.exchanged results f).finish env true).node.forwarder := by
  have halone : (applied env.engine p.alone before).2 = (applied env.engine p before).2 := by
    rw [Handling.applied_alone]
  have hid : y.request.packet.header.requestId = p.header.requestId := by
    obtain ⟨code, body, hreply⟩ := Handling.exists_applied_eq_reply env.engine p before
    rw [hpacket, hreply]
    rfl
  have hready := h.abreast.turn (applied env.engine p.alone before).2 fun _ ha ↦ h.exists_held ha
  obtain ⟨results, f, hreceive, hread⟩ := hready.receive henv hid h.length_eq h.linked hok hsize
  refine ⟨results, f, ?_, ?_⟩
  · rw [Handling.conclude, if_pos, hreceive]
    · rfl
    · simpa [Request.isOk, hpacket] using hok
  refine standing_finish henv (fun _ ↦ rfl) hread fun address ha ↦ .inl ?_
  rw [← halone]
  apply hread.settled address ha
  intro x hx hasked
  simp [(exists_slot_of_mem hx).1] at hasked

/-- A packet that failed at the node fails at every follower that was told of it, whenever that is, and
so changes nothing there. -/
theorem Informed.refused {p : Packet} {before : ω} (henv : env.network = network)
    (h : Informed env.engine p before addresses y)
    (hpacket : y.request.packet = (applied env.engine p before).1)
    (hfailed : (applied env.engine p before).1.header.result ≠ .ok)
    (hkept : (applied env.engine p before).2 = before) :
    y.conclude env none = y.finish env false ∧
      Standing env.engine addresses before (y.finish env false).node.forwarder := by
  have halone : (applied env.engine p.alone before).2 = before := by
    rw [Handling.applied_alone]
    exact hkept
  constructor
  · rw [Handling.conclude, if_neg]
    simpa [Request.isOk, hpacket] using hfailed
  refine standing_finish henv (by simp) h.abreast fun address ha ↦ ?_
  obtain ⟨x, hx, hasked, haddress⟩ := h.exists_held ha
  obtain ⟨answered, htold⟩ := h.abreast.told x hx hasked
  have hbears := h.abreast.tidy.bears x (List.mem_append_right _ hx)
  exact .inr ⟨p, x.link, answered, hbears.address_eq.trans haddress, htold, halone⟩

/-- A packet that names every follower once is applied by the node and, sooner or later, by all its
followers; its reply is the one that the storage gives. -/
theorem Standing.process (henv : env.network = network) (hp : Relayable x.request.packet)
    (hforward : x.request.isForward = true)
    (hparse : Request.parseFollowers x.request.packet = .ok followers)
    (hnames : followers.Perm addresses) (haddresses : addresses.Nodup)
    (h : Standing env.engine addresses x.node.store x.node.forwarder)
    (hw : x.node.forwarder.network.Quiet) :
    let answer := applied env.engine x.request.packet x.node.store
    (answer.1.header.result ≠ .ok → answer.2 = x.node.store) →
    answer.1.data.size ≤ Wire.maxPayloadSize →
    ∃ y, x.process env = (none, y) ∧ y.request.packet = answer.1 ∧
      y.request.needsReply = x.request.needsReply ∧ y.client = x.client ∧
      y.node.store = answer.2 ∧ Standing env.engine addresses answer.2 y.node.forwarder := by
  intro answer hkept hsize
  obtain ⟨results, f, hsend, hlength, hslots, htold⟩ :=
    (h.abreast hw x.request.packet).send henv hp (hnames.nodup_iff.mpr haddresses) hnames.subset
  let sent := (x.resolved followers).exchanged results f
  have hstreams : sent.request.packet.header.opcode.streamsReply = false := hp.not_streamed
  obtain ⟨y, ho, hrequest, hstore, hforwarder, hclient⟩ := Handling.exists_operate_eq env hstreams
  have hforward' : (x.resolved followers).request.isForward = true := hforward
  have hprocess : x.process env = (none, y.conclude env none) := by
    rw [Handling.process_of_parse_ok hp.not_master hparse,
      Handling.processResolved_of_sent hforward' hsend, ho]
  obtain ⟨hpacket, hneeds, hfollowers, hresults⟩ : y.request.packet = answer.1 ∧
      y.request.needsReply = x.request.needsReply ∧ y.request.followers = followers ∧
      y.request.slots = results.map Prod.fst := by
    rw [hrequest]
    exact ⟨rfl, rfl, rfl, rfl⟩
  have hstore' : y.node.store = answer.2 := hstore
  have hinformed : Informed env.engine x.request.packet x.node.store addresses y := {
    length_eq := by rw [hresults, hfollowers, List.length_map, hlength]
    linked := hresults ▸ hslots
    names := hfollowers ▸ hnames.symm.subset
    abreast := by
      rw [hresults, hfollowers, hforwarder]
      exact htold }
  by_cases hok : answer.1.header.result = .ok
  · obtain ⟨results', f', hconclude, hstanding⟩ := hinformed.acknowledged henv hpacket hok hsize
    exact ⟨(y.exchanged results' f').finish env true, by rw [hprocess, hconclude], hpacket, hneeds,
      hclient, hstore', hstanding⟩
  · obtain ⟨hconclude, hstanding⟩ := hinformed.refused henv hpacket hok (hkept hok)
    refine ⟨y.finish env false, by rw [hprocess, hconclude], hpacket, hneeds, hclient, hstore', ?_⟩
    rw [hkept hok]
    exact hstanding

end Handling

end ReplicaChain.Cluster
