import ReplicaChain.Proofs.Cluster.CleanLinks
import ReplicaChain.Proofs.Cluster.Fairness

/-!
# Followers abreast of one packet

In a fair world a packet reaches every follower that it names, and every follower answers it.  While
the packet is relayed, a follower has the storage from before the packet until it is told; while the
replies are collected, a follower has the storage from after the packet once its reply was read.  No
exchange fails on the way, because the pool never runs out of links and the network does what it is
used for.
-/

namespace ReplicaChain.Cluster

open Follower (Forwarder Link LinkPool ReceiveStage Receiving SendStage Sending relayFrame)
open Handling (Relayable applied)
open Wire (Packet)

variable {ω τ : Type} {engine : Extent.Engine ω} {p : Packet} {store rest : ω}
  {addresses : List String} {held others : List Held} {x : Held} {q q' : LinkPool}
  {w w' : World ω τ} {f f' : Forwarder (World ω τ)} {address : String}

/-- Followers that were told of `p` had a storage before, and all others are at rest with a storage.
At most one link is held for each of them. -/
structure Abreast (engine : Extent.Engine ω) (p : Packet) (store rest : ω) (addresses : List String)
    (held : List Held) (q : LinkPool) (w : World ω τ) : Prop where
  tidy : Tidy held q w
  sparing : q.Sparing addresses (held.map (·.address))
  fair : w.Fair engine
  told : ∀ x ∈ held, x.phase = .asked p → ∃ answered, w.Told engine p store answered x.link
  settled : ∀ address ∈ addresses, (∀ x ∈ held, x.phase = .asked p → x.address ≠ address) →
    w.Settled address rest

/-- The pool counts the links that it keeps and those that it lent. -/
theorem Tidy.total_eq_length (h : Tidy held q w) :
    q.total = (q.idle.map Prod.fst ++ held.map (·.address)).length := by
  rw [h.total_eq]
  simp [inventory]

namespace Abreast

theorem perm {held' : List Held} (h : Abreast engine p store rest addresses held q w)
    (hperm : held.Perm held') : Abreast engine p store rest addresses held' q w where
  tidy := h.tidy.perm hperm
  sparing := h.sparing.perm (hperm.map _)
  fair := h.fair
  told x hx := h.told x (hperm.mem_iff.mpr hx)
  settled address ha hx := h.settled address ha fun x hx' ↦ hx x (hperm.mem_iff.mp hx')

/-- Nothing changes for followers by what happens without the node. -/
theorem keep (h : Abreast engine p store rest addresses held q w) (htidy : Tidy held q w')
    (hkeeps : w.Keeps engine none w') : Abreast engine p store rest addresses held q w' where
  tidy := htidy
  sparing := h.sparing
  fair := hkeeps.fair h.fair
  told x hx hphase := by
    obtain ⟨answered, htold⟩ := h.told x hx hphase
    exact hkeeps.told p store answered x.link (by simp) htold
  settled address ha hx := hkeeps.settled address rest (by simp) (h.settled address ha hx)

/-- A link is lent. -/
theorem lend (h : Abreast engine p store rest addresses held q w) (htidy : Tidy (x :: held) q' w)
    (hsparing : q'.Sparing addresses (x.address :: held.map (·.address)))
    (hphase : x.phase ≠ .asked p) : Abreast engine p store rest addresses (x :: held) q' w where
  tidy := htidy
  sparing := hsparing
  fair := h.fair
  told y hy hasked := by
    rcases List.mem_cons.mp hy with rfl | hy
    · exact absurd hasked hphase
    · exact h.told y hy hasked
  settled address ha hx := h.settled address ha fun y hy ↦ hx y (List.mem_cons_of_mem x hy)

/-- What is done on a link that is held concerns the follower at its other end alone. -/
theorem change {phase : Phase} (h : Abreast engine p store rest addresses (x :: held) q w)
    (htidy : Tidy ({ x with phase } :: held) q' w')
    (hsparing : q'.Sparing addresses ((x :: held).map (·.address)))
    (hkeeps : w.Keeps engine (some x.link) w')
    (htold : phase = .asked p → ∃ answered, w'.Told engine p store answered x.link)
    (hsettled : phase ≠ .asked p → w'.Settled x.address rest) :
    Abreast engine p store rest addresses ({ x with phase } :: held) q' w' where
  tidy := htidy
  sparing := hsparing
  fair := hkeeps.fair h.fair
  told y hy hasked := by
    rcases List.mem_cons.mp hy with rfl | hy
    · exact htold hasked
    obtain ⟨answered, htold⟩ := h.told y (List.mem_cons_of_mem x hy) hasked
    refine hkeeps.told p store answered y.link (fun link hlink ↦ ?_) htold
    obtain rfl := Option.some.inj hlink
    have hmem : y ∈ inventory held q := List.mem_append_right _ hy
    have hy' : y ∈ inventory (x :: held) q :=
      (inventory_cons x held q).mem_iff.mpr (List.mem_cons_of_mem x hmem)
    have haddresses := h.sparing.nodup_lent
    rw [List.map_cons, List.nodup_cons] at haddresses
    refine ⟨fun hsame ↦ haddresses.1 (List.mem_map.mpr ⟨y, hy, ?_⟩), h.tidy.number_ne_head hmem⟩
    rw [← (h.tidy.bears y hy').address_eq, ← h.tidy.bears_head.address_eq, hsame]
  settled address ha hx := by
    by_cases haddress : address = x.address
    · subst haddress
      exact hsettled fun hasked ↦ hx _ List.mem_cons_self hasked rfl
    · refine hkeeps.settled address rest (fun link hlink ↦ ?_)
        (h.settled address ha fun y hy hasked ↦ ?_)
      · obtain rfl := Option.some.inj hlink
        rw [h.tidy.bears_head.address_eq]
        exact haddress
      · rcases List.mem_cons.mp hy with rfl | hy
        · exact Ne.symm haddress
        · exact hx y (List.mem_cons_of_mem _ hy) hasked

/-- A follower that was not told of the packet is at rest. -/
theorem settled_head (h : Abreast engine p store rest addresses (x :: held) q w)
    (hphase : x.phase ≠ .asked p) : w.Settled x.link.address rest := by
  have hlent := h.sparing.nodup_lent
  rw [List.map_cons, List.nodup_cons] at hlent
  rw [h.tidy.bears_head.address_eq]
  apply h.settled x.address (h.sparing.subset _ (by simp))
  intro y hy hasked hsame
  rcases List.mem_cons.mp hy with rfl | hy
  · exact hphase hasked
  · exact hlent.1 (List.mem_map.mpr ⟨y, hy, hsame⟩)

end Abreast

/-! ## Relays -/

/-- A relay goes on without a failure. -/
theorem Abreast.sending (hp : Relayable p) {stage stage' : SendStage}
    (ha : Sending.Advances network (relayFrame p) address stage f stage' f')
    (hmem : address ∈ addresses) (hothers : ∀ x ∈ others, x.address ≠ address)
    (hsound : stage.Sound)
    (h : Abreast engine p store store addresses
      ((heldBySending p (address, stage)).toList ++ others) f.links f.network) :
    Abreast engine p store store addresses ((heldBySending p (address, stage')).toList ++ others)
        f'.links f'.network ∧ stage'.Sound := by
  have htidy := h.tidy.sending hp ha
  have hnotMem : address ∉ others.map (·.address) := by
    simpa using fun x hx ↦ hothers x hx
  cases ha with
  | refused hr =>
    exact absurd hr (h.sparing.request_ne_refused hmem hnotMem h.tidy.total_eq_length)
  | idle hr => exact ⟨h.lend htidy (h.sparing.request_idle hr) (by simp), trivial⟩
  | dialing hr hd =>
    have hsparing := h.sparing.request_toDial hmem hnotMem hr
    have hlent := h.lend (h.tidy.request_toDial hr) hsparing (by simp)
    exact ⟨hlent.keep htidy (World.keeps_dial h.fair hd), trivial⟩
  | dialed hr hd =>
    have hsparing := h.sparing.request_toDial hmem hnotMem hr
    have hlent := h.lend (h.tidy.request_toDial hr) hsparing (by simp)
    obtain ⟨-, hkeeps, hsettled⟩ := World.fair_dial h.fair hd
    have haddress := hlent.tidy.bears_head.address_eq
    refine ⟨hlent.change htidy hlent.sparing.opened hkeeps (by simp) fun _ ↦ ?_, trivial⟩
    rw [← haddress]
    exact hsettled store (hlent.settled_head (by simp))
  | undialed fault hr hd hfailed => exact absurd (World.fair_dial h.fair hd).1 hfailed
  | awaited hd =>
    obtain ⟨-, hkeeps, hsettled⟩ := World.fair_await h.fair hd
    have haddress := (Tidy.bears_head h.tidy).address_eq
    refine ⟨h.change htidy h.sparing.opened hkeeps (by simp) fun _ ↦ ?_, trivial⟩
    rw [← haddress]
    exact hsettled store (h.settled_head (by simp))
  | unawaited fault hd hfailed => exact absurd (World.fair_await h.fair hd).1 hfailed
  | written hw =>
    obtain ⟨-, hkeeps, htold⟩ := World.fair_write h.tidy h.fair hp (h.settled_head (by simp)) hw
    exact ⟨h.change htidy h.sparing hkeeps (fun _ ↦ ⟨false, htold⟩) (by simp), trivial⟩
  | unwritten hw =>
    simpa using (World.fair_write h.tidy h.fair hp (h.settled_head (by simp)) hw).1
  | settled => exact ⟨h, hsound⟩

/-- All followers of a packet are told of it, and no relay fails. -/
theorem abreast_relayed (hp : Relayable p) (schedule : List Nat) {followers : List String}
    (hnodup : followers.Nodup) (hsubset : followers ⊆ addresses)
    (h : Abreast engine p store store addresses [] f.links f.network) :
    let run := f.relayed network schedule (relayFrame p) followers
    Abreast engine p store store addresses (run.1.filterMap (heldBySending p)) run.2.links
        run.2.network ∧
      ∀ r ∈ run.1, r.2.Sound := by
  refine Follower.runAll_induction_addresses (P := fun l f ↦
    Abreast engine p store store addresses (l.filterMap (heldBySending p)) f.links f.network ∧
      ∀ r ∈ l, r.2.Sound) ?_ _ ⟨?_, ?_⟩
  · intro l f i address stage hl hi ⟨habreast, hsound⟩
    have hl : l.map Prod.fst = followers := hl.trans (Forwarder.map_fst_waiting followers)
    obtain ⟨others, hold, hnew, hothers⟩ := Follower.exists_filterMap_perm (heldBySending p) hi
    have hadvances := Sending.advances_advance network (relayFrame p) address stage f
    have hmem : (address, stage) ∈ l := List.mem_of_getElem? hi
    have haddress : address ∈ followers := hl ▸ List.mem_map_of_mem hmem
    have hne : ∀ x ∈ others, x.address ≠ address := by
      intro x hx
      obtain ⟨r, hr, hheld⟩ := hothers x hx
      rw [address_heldBySending hheld]
      exact Follower.ne_of_mem_eraseIdx (hl ▸ hnodup) hi hr
    obtain ⟨habreast', hsound'⟩ := (habreast.perm hold).sending hp hadvances (hsubset haddress) hne
      (hsound _ hmem)
    refine ⟨habreast'.perm (hnew _).symm, fun r hr ↦ ?_⟩
    rcases List.mem_or_eq_of_mem_set hr with hr | rfl
    · exact hsound r hr
    · exact hsound'
  · rw [filterMap_waiting]
    exact h
  · intro r hr
    obtain ⟨address, -, rfl⟩ := List.mem_map.mp hr
    trivial

/-! ## Replies -/

/-- The reply of a follower that did as it was told can be read and acknowledges the packet. -/
theorem exists_acknowledgement (hp : Relayable p)
    (hok : (applied engine p store).1.header.result = .ok)
    (hsize : (applied engine p store).1.data.size ≤ Wire.maxPayloadSize) {s : Source}
    (hs : s.bytes = (applied engine p.alone store).1.frame) (address : String) (pool : BufferPool) :
    ∃ reply pool' rest, Packet.decode pool s = (.ok reply, pool', rest) ∧
      Follower.checkReply address p.header.requestId reply = none := by
  obtain ⟨code, body, hreply⟩ := Handling.exists_applied_eq_reply engine p store
  have halone : (applied engine p.alone store).1 = p.alone.reply code body := by
    rw [Handling.applied_alone, hreply]
    rfl
  rw [hreply] at hok hsize
  have hfits : (p.alone.reply code body).Fits :=
    Packet.fits_reply hp.decodable.fits_alone.canonical hsize
  have hframe : s.bytes = (p.alone.reply code body).frame ++ .empty := by
    rw [hs, halone, ByteArray.append_empty]
  obtain ⟨pool', rest, hd, -⟩ := hfits.decode_frame pool hframe
  have hid : (p.alone.reply code body).received.header.requestId = p.header.requestId := rfl
  have hresult : (p.alone.reply code body).received.header.result = .ok := hok
  exact ⟨_, pool', rest, hd, by simp [Follower.checkReply, hid, hresult]⟩

/-- The reply to a packet is read from every follower that was told of the packet. -/
theorem Abreast.receiving (hok : (applied engine p store).1.header.result = .ok)
    (hsize : (applied engine p store).1.data.size ≤ Wire.maxPayloadSize) {stage : ReceiveStage}
    (hsound : stage.Sound)
    (h : Abreast engine p store (applied engine p.alone store).2 addresses
      ((heldByReceiving p (address, stage)).toList ++ others) f.links f.network) :
    let advanced := Receiving.advance network p.header.requestId address stage f
    Abreast engine p store (applied engine p.alone store).2 addresses
        ((heldByReceiving p (address, advanced.1)).toList ++ others) advanced.2.links
        advanced.2.network ∧ advanced.1.Sound := by
  rcases stage with (_ | link) | ⟨_ | link, _ | fault⟩
  · exact hsound.elim
  · obtain ⟨answered, htold⟩ := h.told _ List.mem_cons_self rfl
    rcases hi : network.incoming link f.network with ⟨s, w'⟩
    obtain ⟨hbytes, hleave⟩ := World.fair_incoming h.fair htold hi
    obtain ⟨reply, buffers, rest, hd, hcheck⟩ :=
      exists_acknowledgement htold.relayable hok hsize hbytes address f.buffers
    have htidy := (Tidy.receive_ok h.tidy hi hd).1
    obtain ⟨hkeeps, hsettled⟩ := hleave rest
    simp only [Receiving.advance, Forwarder.receiveOne, hi, hd, hcheck]
    refine ⟨h.change htidy h.sparing hkeeps (by simp) fun _ ↦ ?_, trivial⟩
    rw [← (Tidy.bears_head h.tidy).address_eq]
    exact hsettled
  · exact hsound.elim
  · exact hsound.elim
  · exact ⟨h, trivial⟩
  · exact hsound.elim

/-- The replies of all followers are read, and none of them fails. -/
theorem abreast_collected (hok : (applied engine p store).1.header.result = .ok)
    (hsize : (applied engine p store).1.data.size ≤ Wire.maxPayloadSize) (schedule : List Nat)
    {followers : List String} {slots : List (Option Link)} (hslots : ∀ slot ∈ slots, slot.isSome)
    (h : Abreast engine p store (applied engine p.alone store).2 addresses
      ((followers.zip slots).filterMap (heldInSlot (.asked p))) f.links f.network) :
    let run := f.collected network schedule p.header.requestId followers slots
    Abreast engine p store (applied engine p.alone store).2 addresses
        (run.1.filterMap (heldByReceiving p)) run.2.links run.2.network ∧
      ∀ r ∈ run.1, r.2.Sound := by
  refine Follower.runAll_induction (P := fun l f ↦
    Abreast engine p store (applied engine p.alone store).2 addresses
      (l.filterMap (heldByReceiving p)) f.links f.network ∧ ∀ r ∈ l, r.2.Sound) ?_ _ ⟨?_, ?_⟩
  · intro l f i address stage hi ⟨hl, hsound⟩
    obtain ⟨others, hold, hnew, -⟩ := Follower.exists_filterMap_perm (heldByReceiving p) hi
    obtain ⟨habreast, hsound'⟩ := (hl.perm hold).receiving hok hsize
      (hsound _ (List.mem_of_getElem? hi))
    refine ⟨habreast.perm (hnew _).symm, fun r hr ↦ ?_⟩
    rcases List.mem_or_eq_of_mem_set hr with hr | rfl
    · exact hsound r hr
    · exact hsound'
  · rw [filterMap_pending]
    exact h
  · intro r hr
    obtain ⟨⟨address, slot⟩, hslot, rfl⟩ := List.mem_map.mp hr
    obtain ⟨link, rfl⟩ := Option.isSome_iff_exists.mp (hslots slot (List.of_mem_zip hslot).2)
    trivial

/-! ## Sending and receiving -/

/-- A link is held for every follower that has one in its slot. -/
theorem exists_held (phase : Phase) {followers : List String} {slots : List (Option Link)}
    (hlength : slots.length = followers.length) (hslots : ∀ slot ∈ slots, slot.isSome)
    (ha : address ∈ followers) :
    ∃ x ∈ (followers.zip slots).filterMap (heldInSlot phase),
      x.phase = phase ∧ x.address = address := by
  obtain ⟨i, hi, rfl⟩ := List.mem_iff_getElem.mp ha
  have hi' : i < slots.length := by omega
  obtain ⟨link, hlink⟩ := Option.isSome_iff_exists.mp (hslots slots[i] (List.getElem_mem hi'))
  have hmem : (followers[i], slots[i]) ∈ followers.zip slots := by
    rw [← List.getElem_zip (h := by simp; omega)]
    exact List.getElem_mem _
  refine ⟨⟨followers[i], link, phase⟩, List.mem_filterMap.mpr ⟨_, hmem, ?_⟩, rfl, rfl⟩
  rw [hlink]
  rfl

/-- Once all followers were told of the packet, none of them has the storage from before for good. -/
theorem Abreast.turn (h : Abreast engine p store rest addresses held q w) (rest' : ω)
    (hall : ∀ address ∈ addresses, ∃ x ∈ held, x.phase = .asked p ∧ x.address = address) :
    Abreast engine p store rest' addresses held q w where
  tidy := h.tidy
  sparing := h.sparing
  fair := h.fair
  told := h.told
  settled address ha hx := by
    obtain ⟨x, hmem, hphase, haddress⟩ := hall address ha
    exact absurd haddress (hx x hmem hphase)

section Handling

variable {env : Environment ω (World ω τ)} {y : Handling ω (World ω τ)} {followers : List String}

/-- Sending tells every follower of the packet. -/
theorem Abreast.send {x : Handling ω (World ω τ)} (henv : env.network = network)
    (hp : Relayable x.request.packet) (hnodup : followers.Nodup) (hsubset : followers ⊆ addresses)
    (h : Abreast engine x.request.packet store store addresses [] x.node.forwarder.links
      x.node.forwarder.network) :
    ∃ results f, (x.resolved followers).send env = (none, (x.resolved followers).exchanged results f) ∧
      results.length = followers.length ∧ (∀ slot ∈ results.map Prod.fst, slot.isSome) ∧
      Abreast engine x.request.packet store store addresses
        ((followers.zip (results.map Prod.fst)).filterMap (heldInSlot (.asked x.request.packet)))
        f.links f.network := by
  obtain ⟨habreast, hsound⟩ := abreast_relayed hp env.sendSchedule hnodup hsubset h
  obtain ⟨results, hsend, hlength, hslots, hheld⟩ := exists_sent henv hsound
  refine ⟨results, _, hsend, hlength, hslots, ?_⟩
  rw [hheld]
  exact habreast

/-- Receiving reads the acknowledgement of every follower. -/
theorem Abreast.receive (henv : env.network = network)
    (hid : y.request.packet.header.requestId = p.header.requestId)
    (hlength : y.request.slots.length = y.request.followers.length)
    (hslots : ∀ slot ∈ y.request.slots, slot.isSome)
    (hok : (applied engine p store).1.header.result = .ok)
    (hsize : (applied engine p store).1.data.size ≤ Wire.maxPayloadSize)
    (h : Abreast engine p store (applied engine p.alone store).2 addresses
      ((y.request.followers.zip y.request.slots).filterMap (heldInSlot (.asked p)))
      y.node.forwarder.links y.node.forwarder.network) :
    ∃ results f, y.receive env = (none, y.exchanged results f) ∧
      Abreast engine p store (applied engine p.alone store).2 addresses
        ((y.request.followers.zip (results.map Prod.fst)).filterMap (heldInSlot .clean))
        f.links f.network := by
  obtain ⟨habreast, hsound⟩ := abreast_collected hok hsize env.receiveSchedule hslots h
  obtain ⟨results, hreceive, hheld⟩ := exists_received henv hid hlength hsound
  refine ⟨results, _, hreceive, ?_⟩
  rw [hheld]
  exact habreast

end Handling

end ReplicaChain.Cluster
