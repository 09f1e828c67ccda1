import ReplicaChain.Proofs.Cluster.Abreast
import ReplicaChain.Proofs.Cluster.Attempts
import ReplicaChain.Proofs.Cluster.WorkingLinks
import ReplicaChain.Proofs.Node.Responses

/-!
# Repairing what was half done

Once links work again, one more attempt with a packet repairs whatever earlier attempts left behind.
Every follower is told of the packet once more, on an idle link or on one that is dialed, and acknowledges
it whether it had applied the packet before or not.  So the client is told of a success, and the node and
all of its followers have the storage from after the packet.
-/

namespace ReplicaChain.Cluster

open Follower (Forwarder Link LinkPool ReceiveStage Receiving SendStage Sending relayFrame)
open Handling (applied)
open Wire (Packet)

variable {ω τ : Type} {r : Retry ω} {held held' others : List Held} {x : Held} {q q' : LinkPool}
  {w w' : World ω τ} {f f' : Forwarder (World ω τ)} {address : String} {waiting : List String}

/-! ## Links of a node -/

/-- The links of a node to the followers of a packet work, those that are idle and those that are held, and
will go on to. -/
structure Repairing (r : Retry ω) (held : List Held) (q : LinkPool) (w : World ω τ) : Prop where
  tidy : Tidy held q w
  partway : w.Partway r
  fair : ∀ i, w.clock ≤ i → (w.fates i).Fair r.engine
  serves : ∀ x ∈ inventory held q, x.address ∈ r.followers → x.phase ≠ .unknown → w.Serves r x

namespace Repairing

/-- Links may change hands. -/
theorem handOver (h : Repairing r held q w) (htidy : Tidy held' q' w)
    (hsubset : ∀ x ∈ inventory held' q', x.phase ≠ .unknown → x ∈ inventory held q) :
    Repairing r held' q' w where
  tidy := htidy
  partway := h.partway
  fair := h.fair
  serves x hx ha hphase := h.serves x (hsubset x hx hphase) ha hphase

theorem perm (h : Repairing r held q w) (hperm : held.Perm held') : Repairing r held' q w :=
  h.handOver (h.tidy.perm hperm) fun _ hx _ ↦ (hperm.append_left _).mem_iff.mpr hx

theorem fair_of_continues (h : Repairing r held q w) (hw : w.Continues r w') :
    ∀ i, w'.clock ≤ i → (w'.fates i).Fair r.engine := by
  rw [hw.fates_eq]
  exact fun i hi ↦ h.fair i (Nat.le_trans hw.clock_le hi)

theorem serves_head (h : Repairing r (x :: held) q w) (ha : x.address ∈ r.followers)
    (hphase : x.phase ≠ .unknown) : w.Serves r x :=
  h.serves x ((inventory_cons x held q).mem_iff.mpr List.mem_cons_self) ha hphase

/-- Nothing changes for the links by what happens without the node. -/
theorem keep (h : Repairing r held q w) (htidy : Tidy held q w') (hw : w.Sustains r none w') :
    Repairing r held q w' where
  tidy := htidy
  partway := hw.continues.partway
  fair := h.fair_of_continues hw.continues
  serves x hx ha hphase := by
    have haddress := (h.tidy.bears x hx).address_eq
    exact hw.serves x (haddress ▸ ha) (by simp) (h.serves x hx ha hphase)

/-- What is done on a link that is held concerns no other link. -/
theorem change {phase : Phase} (h : Repairing r (x :: held) q w)
    (htidy : Tidy ({ x with phase } :: held) q' w') (hidle : q'.idle = q.idle)
    (hw : w.Sustains r (some x.link) w') (hserves : w'.Serves r { x with phase }) :
    Repairing r ({ x with phase } :: held) q' w' where
  tidy := htidy
  partway := hw.continues.partway
  fair := h.fair_of_continues hw.continues
  serves y hy ha hphase := by
    have hsame : inventory ({ x with phase } :: held) q' = inventory ({ x with phase } :: held) q := by
      rw [inventory, inventory, hidle]
    rw [hsame] at hy
    rcases List.mem_cons.mp ((inventory_cons _ held q).mem_iff.mp hy) with rfl | hy
    · exact hserves
    have hy' : y ∈ inventory (x :: held) q :=
      (inventory_cons x held q).mem_iff.mpr (List.mem_cons_of_mem x hy)
    have haddress := (h.tidy.bears y hy').address_eq
    refine hw.serves y (haddress ▸ ha) (fun link hlink ↦ ?_) (h.serves y hy' ha hphase)
    obtain rfl := Option.some.inj hlink
    exact h.tidy.number_ne_head hy

/-! ## Requests for links -/

/-- An idle link that is lent goes on working. -/
theorem request_idle {link : Link} (h : Repairing r held q w)
    (hr : q.request address = (.idle link, q')) :
    Repairing r (⟨address, link, .clean⟩ :: held) q' w := by
  refine h.handOver (h.tidy.request_idle hr) fun x hx _ ↦ ?_
  obtain ⟨newer, older, hidle, -, rfl⟩ := LinkPool.takeIdle_eq_some (LinkPool.request_idle hr)
  simp only [inventory, hidle, List.map_append, List.map_cons, List.mem_append, List.mem_cons] at hx ⊢
  tauto

/-- A link that is still to be dialed does not work yet. -/
theorem request_toDial {link : Link} (h : Repairing r held q w)
    (hr : q.request address = (.toDial link, q')) :
    Repairing r (⟨address, link, .unknown⟩ :: held) q' w := by
  refine h.handOver (h.tidy.request_toDial hr) fun x hx hphase ↦ ?_
  obtain ⟨-, -, -, rfl⟩ := LinkPool.request_toDial hr
  rcases List.mem_cons.mp ((inventory_cons _ held _).mem_iff.mp hx) with rfl | hx
  · exact absurd rfl hphase
  · exact hx

/-- The packet can be relayed on a link that is held. -/
theorem write_succeeds {link : Link} {result : Except IoFault Unit} (ha : address ∈ r.followers)
    (h : Repairing r (⟨address, link, .clean⟩ :: held) q w)
    (hwrite : network.write link (relayFrame r.packet) w = (result, w')) :
    result = .ok () ∧ w.Sustains r (some link) w' ∧ w'.Serves r ⟨address, link, .asked r.packet⟩ := by
  have haddress := h.tidy.bears_head.address_eq
  exact h.partway.write_succeeds (h.fair w.clock (Nat.le_refl _)) h.tidy (haddress ▸ ha)
    (h.serves_head ha (by simp)) hwrite

end Repairing

/-! ## Relays -/

/-- The address to which a relay has yet to get a link. -/
def waitingAt : String × SendStage → Option String
  | (address, .waiting) => some address
  | _ => none

theorem waitingAt_eq_some {a : String × SendStage} (h : waitingAt a = some address) : address = a.1 := by
  obtain ⟨_, _ | _ | _ | _⟩ := a <;> simp only [waitingAt, Option.some.injEq, reduceCtorEq] at h
  exact h.symm

/-- A relay goes on without a failure. -/
theorem Repairing.sending {stage stage' : SendStage}
    (ha : Sending.Advances network (relayFrame r.packet) address stage f stage' f')
    (hmem : address ∈ r.followers) (hsound : stage.Sound)
    (hroom : f.links.HasRoom ((waitingAt (address, stage)).toList ++ waiting))
    (hwaiting : address ∉ waiting)
    (h : Repairing r ((heldBySending r.packet (address, stage)).toList ++ others) f.links f.network) :
    Repairing r ((heldBySending r.packet (address, stage')).toList ++ others) f'.links f'.network ∧
      f'.links.HasRoom ((waitingAt (address, stage')).toList ++ waiting) ∧ stage'.Sound := by
  have htidy := h.tidy.sending r.relayable ha
  have hfair := h.fair f.network.clock (Nat.le_refl _)
  cases ha with
  | refused hr => exact absurd hr hroom.request_ne_refused
  | idle hr => exact ⟨h.request_idle hr, hroom.request_idle hwaiting hr, trivial⟩
  | dialing hr hd =>
    have hlent := h.request_toDial hr
    exact ⟨hlent.keep htidy (hlent.partway.dial_pends hfair hd), hroom.request_toDial hr, trivial⟩
  | dialed hr hd =>
    have hlent := h.request_toDial hr
    obtain ⟨-, hsustains, hserves⟩ := hlent.partway.dial_succeeds hfair hd
    exact ⟨hlent.change htidy rfl hsustains (hserves address), (hroom.request_toDial hr).opened,
      trivial⟩
  | undialed fault hr hd hfailed => exact absurd (h.partway.dial_succeeds hfair hd).1 hfailed
  | awaited hd =>
    obtain ⟨-, hsustains, hserves⟩ := h.partway.await_succeeds hfair hd
    exact ⟨Repairing.change h htidy rfl hsustains (hserves address), hroom.opened, trivial⟩
  | unawaited fault hd hfailed => exact absurd (h.partway.await_succeeds hfair hd).1 hfailed
  | written hw =>
    obtain ⟨-, hsustains, hserves⟩ := h.write_succeeds hmem hw
    exact ⟨Repairing.change h htidy rfl hsustains hserves, hroom, trivial⟩
  | unwritten hw => simpa using (h.write_succeeds hmem hw).1
  | settled => exact ⟨h, hroom, hsound⟩

/-- All followers are told of the packet, and no relay fails. -/
theorem repairing_relayed (schedule : List Nat) (hroom : f.links.HasRoom r.followers)
    (h : Repairing r [] f.links f.network) :
    let run := f.relayed network schedule (relayFrame r.packet) r.followers
    Repairing r (run.1.filterMap (heldBySending r.packet)) run.2.links run.2.network ∧
      run.2.links.HasRoom (run.1.filterMap waitingAt) ∧ ∀ a ∈ run.1, a.2.Sound := by
  refine Follower.runAll_induction_addresses (P := fun l g ↦
    Repairing r (l.filterMap (heldBySending r.packet)) g.links g.network ∧
      g.links.HasRoom (l.filterMap waitingAt) ∧ ∀ a ∈ l, a.2.Sound) ?_ _ ⟨?_, ?_, ?_⟩
  · intro l g i address stage hl hi ⟨hrepairing, hroom, hsound⟩
    have hl : l.map Prod.fst = r.followers := hl.trans (Forwarder.map_fst_waiting r.followers)
    obtain ⟨others, hold, hnew, -⟩ :=
      Follower.exists_filterMap_perm (heldBySending r.packet) hi
    obtain ⟨waiting, hold', hnew', hwaiting⟩ := Follower.exists_filterMap_perm waitingAt hi
    have hadvances := Sending.advances_advance network (relayFrame r.packet) address stage g
    have hmem : (address, stage) ∈ l := List.mem_of_getElem? hi
    have haddress : address ∈ r.followers := hl ▸ List.mem_map_of_mem hmem
    have hnotMem : address ∉ waiting := by
      intro hw
      obtain ⟨a, ha, hat⟩ := hwaiting address hw
      exact Follower.ne_of_mem_eraseIdx (hl ▸ r.nodup) hi ha (waitingAt_eq_some hat).symm
    obtain ⟨hrepairing', hroom', hsound'⟩ := (hrepairing.perm hold).sending hadvances haddress
      (hsound _ hmem) (hroom.perm hold') hnotMem
    refine ⟨hrepairing'.perm (hnew _).symm, hroom'.perm (hnew' _).symm, fun a ha ↦ ?_⟩
    rcases List.mem_or_eq_of_mem_set ha with ha | rfl
    · exact hsound a ha
    · exact hsound'
  · rw [filterMap_waiting]
    exact h
  · have hall : (r.followers.map (·, SendStage.waiting)).filterMap waitingAt = r.followers := by
      simp [List.filterMap_map, Function.comp_def, waitingAt]
    rw [hall]
    exact hroom
  · intro a ha
    obtain ⟨address, -, rfl⟩ := List.mem_map.mp ha
    trivial

/-! ## Replies -/

/-- The exchange with a follower has not failed, and once it is over the follower has applied the packet. -/
structure Acknowledging (r : Retry ω) (w : World ω τ) (a : String × ReceiveStage) : Prop where
  mem : a.1 ∈ r.followers
  sound : a.2.Sound
  applied : ∀ link fault, a.2 = .settled link fault → (w.members a.1).store = r.after

theorem Acknowledging.keep {a : String × ReceiveStage} (h : Acknowledging r w a)
    (hw : w.Continues r w') : Acknowledging r w' a :=
  ⟨h.mem, h.sound, fun link fault hstage ↦ hw.applied a.1 h.mem (h.applied link fault hstage)⟩

/-- The reply of a follower that was told of the packet is read, and acknowledges it. -/
theorem Repairing.receiving {stage : ReceiveStage}
    (ha : Acknowledging r f.network (address, stage))
    (h : Repairing r ((heldByReceiving r.packet (address, stage)).toList ++ others) f.links f.network) :
    let advanced := Receiving.advance network r.packet.header.requestId address stage f
    Repairing r ((heldByReceiving r.packet (address, advanced.1)).toList ++ others) advanced.2.links
        advanced.2.network ∧
      Acknowledging r advanced.2.network (address, advanced.1) ∧
      f.network.Continues r advanced.2.network := by
  rcases stage with (_ | link) | ⟨_ | link, _ | fault⟩
  · exact ha.sound.elim
  · rcases hi : network.incoming link f.network with ⟨s, w'⟩
    have haddress : link.address = address := (Tidy.bears_head h.tidy).address_eq
    have hserves : f.network.Serves r ⟨address, link, .asked r.packet⟩ :=
      Repairing.serves_head h ha.mem (by simp)
    obtain ⟨hbytes, hleave⟩ := h.partway.incoming_whole (h.fair _ (Nat.le_refl _))
      (haddress ▸ ha.mem) hserves hi
    obtain ⟨reply, buffers, rest, hd, hcheck⟩ :=
      exists_acknowledgement r.relayable r.accepted r.size_le hbytes address f.buffers
    obtain ⟨hsustains, hserves', hstore⟩ := hleave rest
    rw [haddress] at hstore
    have htidy := (Tidy.receive_ok h.tidy hi hd).1
    simp only [Receiving.advance, Forwarder.receiveOne, hi, hd, hcheck]
    exact ⟨Repairing.change h htidy rfl hsustains hserves', ⟨ha.mem, trivial, fun _ _ _ ↦ hstore⟩,
      hsustains.continues⟩
  · exact ha.sound.elim
  · exact ha.sound.elim
  · exact ⟨h, ha, h.partway.refl⟩
  · exact ha.sound.elim

/-- The replies of all followers are read, and none of them fails. -/
theorem repairing_collected (schedule : List Nat) {slots : List (Option Link)}
    (hslots : ∀ slot ∈ slots, slot.isSome)
    (h : Repairing r ((r.followers.zip slots).filterMap (heldInSlot (.asked r.packet))) f.links
      f.network) :
    let run := f.collected network schedule r.packet.header.requestId r.followers slots
    Repairing r (run.1.filterMap (heldByReceiving r.packet)) run.2.links run.2.network ∧
      ∀ a ∈ run.1, Acknowledging r run.2.network a := by
  refine Follower.runAll_induction (P := fun l g ↦
    Repairing r (l.filterMap (heldByReceiving r.packet)) g.links g.network ∧
      ∀ a ∈ l, Acknowledging r g.network a) ?_ _ ⟨?_, ?_⟩
  · intro l g i address stage hi ⟨hl, hacknowledging⟩
    obtain ⟨others, hold, hnew, -⟩ := Follower.exists_filterMap_perm (heldByReceiving r.packet) hi
    obtain ⟨hrepairing, hread, hcontinues⟩ :=
      (hl.perm hold).receiving (hacknowledging _ (List.mem_of_getElem? hi))
    refine ⟨hrepairing.perm (hnew _).symm, fun a ha ↦ ?_⟩
    rcases List.mem_or_eq_of_mem_set ha with ha | rfl
    · exact (hacknowledging a ha).keep hcontinues
    · exact hread
  · rw [filterMap_pending]
    exact h
  · intro a ha
    obtain ⟨⟨address, slot⟩, hslot, rfl⟩ := List.mem_map.mp ha
    obtain ⟨link, rfl⟩ := Option.isSome_iff_exists.mp (hslots slot (List.of_mem_zip hslot).2)
    exact ⟨(List.of_mem_zip hslot).1, trivial, fun _ _ hstage ↦ by cases hstage⟩

/-! ## One more attempt -/

/-- The links of a node to followers work: nothing goes wrong from now on, the idle links are served, and
the pool has room for a link to each follower to which it keeps none. -/
structure Working (engine : Extent.Engine ω) (followers : List String) (f : Forwarder (World ω τ)) :
    Prop where
  fair : ∀ i, f.network.clock ≤ i → (f.network.fates i).Fair engine
  served : ∀ address link line, (address, link) ∈ f.links.idle → address ∈ followers →
    f.network.lines link.number = some line → line.served = true
  room : f.links.HasRoom followers

theorem Working.repairing (h : Working r.engine r.followers f) (hrest : AtRest f)
    (hpartway : f.network.Partway r) : Repairing r [] f.links f.network where
  tidy := hrest
  partway := hpartway
  fair := h.fair
  serves x hx ha _ := by
    have hx' := hx
    rw [inventory, List.append_nil] at hx'
    obtain ⟨⟨address, link⟩, hidle, rfl⟩ := List.mem_map.mp hx'
    obtain ⟨line, hline, hlink, -⟩ := (hrest.bears _ hx).exists_line (by simp)
    exact ⟨line, hline, hlink, h.served address link line hidle ha hline, by simp⟩

section Handling

variable {env : Environment ω (World ω τ)} {x y : Handling ω (World ω τ)}

/-- Sending tells every follower of the packet. -/
theorem Repairing.send (henv : env.network = network) (hpacket : x.request.packet = r.packet)
    (hroom : x.node.forwarder.links.HasRoom r.followers)
    (h : Repairing r [] x.node.forwarder.links x.node.forwarder.network) :
    ∃ results f, (x.resolved r.followers).send env =
        (none, (x.resolved r.followers).exchanged results f) ∧
      results.length = r.followers.length ∧ (∀ slot ∈ results.map Prod.fst, slot.isSome) ∧
      Repairing r ((r.followers.zip (results.map Prod.fst)).filterMap (heldInSlot (.asked r.packet)))
        f.links f.network := by
  obtain ⟨hsent, -, hsound⟩ := repairing_relayed env.sendSchedule hroom h
  rw [← hpacket] at hsent hsound
  obtain ⟨results, hsend, hlength, hslots, hheld⟩ := exists_sent henv hsound
  rw [← hheld, hpacket] at hsent
  rw [hpacket] at hsend
  exact ⟨results, _, hsend, hlength, hslots, hsent⟩

/-- Receiving reads the acknowledgements of all followers, each of which has applied the packet. -/
theorem Repairing.receive (henv : env.network = network)
    (hid : y.request.packet.header.requestId = r.packet.header.requestId)
    (hfollowers : y.request.followers = r.followers)
    (hlength : y.request.slots.length = y.request.followers.length)
    (hslots : ∀ slot ∈ y.request.slots, slot.isSome)
    (h : Repairing r ((y.request.followers.zip y.request.slots).filterMap
      (heldInSlot (.asked r.packet))) y.node.forwarder.links y.node.forwarder.network) :
    ∃ results f, y.receive env = (none, y.exchanged results f) ∧ f.network.Partway r ∧
      ∀ address ∈ r.followers, (f.network.members address).store = r.after := by
  rw [hfollowers] at h
  obtain ⟨hread, hacknowledged⟩ := repairing_collected env.receiveSchedule hslots h
  rw [← hfollowers] at hread hacknowledged
  obtain ⟨results, hreceive, -⟩ :=
    exists_received henv hid hlength fun a ha ↦ (hacknowledged a ha).sound
  refine ⟨results, _, hreceive, hread.partway, fun address ha ↦ ?_⟩
  -- No exchange is left that has not come to its end.
  have hnames := Forwarder.map_fst_collected network env.receiveSchedule r.packet.header.requestId
    (f := y.node.forwarder) (Nat.le_of_eq hlength.symm)
  rw [← hfollowers, ← hnames] at ha
  obtain ⟨⟨address, stage⟩, hmem, rfl⟩ := List.mem_map.mp ha
  obtain ⟨link, fault, hstage⟩ := Forwarder.settled_of_mem_collected hmem
  exact (hacknowledged _ hmem).applied link fault hstage

/-- Once every follower was told of the packet and the node has applied it, the attempt comes to a good
end. -/
theorem Repairing.conclude (henv : env.network = network)
    (hpacket : y.request.packet = (applied r.engine r.packet r.before).1)
    (hfollowers : y.request.followers = r.followers)
    (hlength : y.request.slots.length = y.request.followers.length)
    (hslots : ∀ slot ∈ y.request.slots, slot.isSome)
    (h : Repairing r ((y.request.followers.zip y.request.slots).filterMap
      (heldInSlot (.asked r.packet))) y.node.forwarder.links y.node.forwarder.network) :
    ∃ results f, y.conclude env none = (y.exchanged results f).finish env true ∧
      ∀ address ∈ r.followers,
        (((y.exchanged results f).finish env true).node.forwarder.network.members address).store =
          r.after := by
  have hid : y.request.packet.header.requestId = r.packet.header.requestId := by
    obtain ⟨code, body, hreply⟩ := Handling.exists_applied_eq_reply r.engine r.packet r.before
    rw [hpacket, hreply]
    rfl
  have hok : y.request.isOk = true := by simpa [Request.isOk, hpacket] using r.accepted
  obtain ⟨results, f, hreceive, hpartway, hmembers⟩ := h.receive henv hid hfollowers hlength hslots
  have hsettled := continues_settle true (y.request.followers.zip (results.map Prod.fst)) hpartway
  rw [← henv] at hsettled
  refine ⟨results, f, ?_, fun address ha ↦ hsettled.applied address ha (hmembers address ha)⟩
  rw [Handling.conclude, hok, hreceive]
  rfl

/-- While links work, one more attempt with the packet succeeds everywhere. -/
theorem Working.process (henv : env.network = network) (hengine : env.engine = r.engine)
    (hpacket : x.request.packet = r.packet) (hforward : x.request.isForward = true)
    (hrest : AtRest x.node.forwarder) (hknows : r.Knows x.node.store)
    (hpartway : x.node.forwarder.network.Partway r)
    (h : Working r.engine r.followers x.node.forwarder) :
    ∃ y, x.process env = (none, y) ∧ y.request.packet = (applied r.engine r.packet r.before).1 ∧
      y.request.needsReply = x.request.needsReply ∧ y.client = x.client ∧ y.node.store = r.after ∧
      ∀ address ∈ r.followers, (y.node.forwarder.network.members address).store = r.after := by
  have hmaster : x.request.isMasterCommand = false := by
    rw [Request.isMasterCommand, hpacket]
    exact r.relayable.not_master
  have hparse : Request.parseFollowers x.request.packet = .ok r.followers := hpacket ▸ r.parse_eq
  have hforward' : (x.resolved r.followers).request.isForward = true := hforward
  obtain ⟨results, f, hsend, hlength, hslots, hsent⟩ :=
    (h.repairing hrest hpartway).send henv hpacket h.room
  let sent := (x.resolved r.followers).exchanged results f
  have hstreams : sent.request.packet.header.opcode.streamsReply = false := by
    change x.request.packet.header.opcode.streamsReply = false
    rw [hpacket]
    exact r.relayable.not_streamed
  have happlied : applied env.engine sent.request.packet sent.node.store =
      ((applied r.engine r.packet r.before).1, r.after) := by
    change applied env.engine x.request.packet x.node.store = _
    rw [hengine, hpacket, Retry.applied_eq hknows]
  obtain ⟨y, ho, hrequest, hstore, hforwarder, hclient⟩ := Handling.exists_operate_eq env hstreams
  rw [happlied] at hrequest hstore
  obtain ⟨hpacket', hneeds, hfollowers, hresults⟩ :
      y.request.packet = (applied r.engine r.packet r.before).1 ∧
      y.request.needsReply = x.request.needsReply ∧ y.request.followers = r.followers ∧
      y.request.slots = results.map Prod.fst := by
    rw [hrequest]
    exact ⟨rfl, rfl, rfl, rfl⟩
  have hlength' : y.request.slots.length = y.request.followers.length := by
    rw [hresults, hfollowers, List.length_map, hlength]
  have hready : Repairing r ((y.request.followers.zip y.request.slots).filterMap
      (heldInSlot (.asked r.packet))) y.node.forwarder.links y.node.forwarder.network := by
    rw [hresults, hfollowers, hforwarder]
    exact hsent
  obtain ⟨results', f', hconclude, hmembers⟩ :=
    hready.conclude henv hpacket' hfollowers hlength' (hresults ▸ hslots)
  refine ⟨(y.exchanged results' f').finish env true, ?_, hpacket', hneeds, hclient, hstore, hmembers⟩
  rw [Handling.process_of_parse_ok hmaster hparse,
    Handling.processResolved_of_sent hforward' hsend, ho, ← hconclude]

/-- The same for a node to which the packet comes. -/
theorem Halfway.process {n : Node ω (World ω τ)} (henv : env.network = network)
    (hengine : env.engine = r.engine) (h : Halfway r n)
    (hworking : Working r.engine r.followers n.forwarder) (buffers : BufferPool) (client : Sink) :
    ∃ y, (Node.opening env r.packet (n.setBuffers buffers) client).process env = (none, y) ∧
      y.request.packet = (applied r.engine r.packet r.before).1 ∧ y.request.needsReply = true ∧
      y.client = client ∧ y.node.store = r.after ∧
      ∀ address ∈ r.followers, (y.node.forwarder.network.members address).store = r.after := by
  have hworking' : Working r.engine r.followers
      (Node.opening env r.packet (n.setBuffers buffers) client).node.forwarder :=
    ⟨hworking.fair, hworking.served, hworking.room⟩
  exact hworking'.process henv hengine rfl r.isForward h.atRest h.knows h.partway

/-- While links work, a node that is sent the packet once more answers with the reply of the storage, and
it and all of its followers have the storage from after the packet. -/
theorem Halfway.answer {n : Node ω (World ω τ)} (henv : env.network = network)
    (hengine : env.engine = r.engine) (h : Halfway r n)
    (hworking : Working r.engine r.followers n.forwarder) :
    let answer := n.answerFrame env r.packet.frame
    answer.2 = (applied r.engine r.packet r.before).1.frame ∧ answer.1.store = r.after ∧
      ∀ address ∈ r.followers, (answer.1.forwarder.network.members address).store = r.after := by
  obtain ⟨buffers, hanswer⟩ := Node.exists_answerFrame_of_reply env n r.relayable.decodable
  obtain ⟨y, hprocess, hpacket, hneeds, hclient, hstore, hmembers⟩ :=
    h.process henv hengine hworking buffers .unbounded
  obtain ⟨code, body, hreply⟩ := Handling.exists_applied_eq_reply r.engine r.packet r.before
  obtain ⟨hstore', hforwarder, hwritten⟩ :=
    hanswer y code body hprocess (hpacket.trans hreply) hneeds hclient
  refine ⟨by rw [hreply, hwritten], hstore'.trans hstore, fun address ha ↦ ?_⟩
  rw [hforwarder]
  exact hmembers address ha

end Handling

section Answers

variable {env : Environment Extent.Store (World Extent.Store τ)}
  {n : Node Extent.Store (World Extent.Store τ)} {p : Packet} {store : Extent.Store}
  {followers : List String}

/-- A write or a request to create an extent that succeeds on a storage is sent to a node again and again,
while the node and its followers fail in any way, and each of them has applied it any number of times to
that storage.  Once the links to the followers work, the next attempt is answered with success, and the node
and all of its followers have the storage that one application of the packet leaves. -/
theorem retry_repairs (henv : env.network = network) (hengine : env.engine = Extent.Store.engine)
    (hp : p.Decodable) (hopcode : p.header.opcode = .write ∨ p.header.opcode = .createExtent)
    (haccepted : (applied Extent.Store.engine p store).1.header.result = .ok)
    (hparse : Request.parseFollowers p = .ok followers) (hremaining : 0 < p.header.remaining)
    (hnodup : followers.Nodup) (hn : Retried Extent.Store.engine p followers store n)
    (hworking : Working Extent.Store.engine followers n.forwarder) :
    let answer := n.answerFrame env p.frame
    let after := (applied Extent.Store.engine p store).2
    answer.2 = p.replyOk.frame ∧ answer.1.store = after ∧
      ∀ address ∈ followers, (answer.1.forwarder.network.members address).store = after := by
  have hhalfway : Halfway (retryOfAccepted hp hopcode haccepted hparse hremaining hnodup) n :=
    Retried.halfway hn
  have hanswer := hhalfway.answer henv hengine hworking
  rw [packet_retryOfAccepted, after_retryOfAccepted] at hanswer
  obtain ⟨hwritten, hstores⟩ := hanswer
  refine ⟨hwritten.trans ?_, hstores⟩
  exact congrArg Packet.frame (applied_of_accepted hopcode haccepted).1

/-- A follower hangs on a request to create an extent, so that the client is told of a failure and only the
node has the extent.  When the request is sent again, both have it. -/
theorem retry_repairs_createExtent :
    let p := (Packet.createExtent 0 1 1 1).withFollowers (Follower.encode ["b:2"]).toUTF8 1
    let env := Node.environment {} network 0
    let kind : Fate Extent.Store Unit := .kind (Node.environment {} .unreachable 0)
    let start := bareNode { bareCluster.forwarder.network with
      fates := fun i ↦ if i = 2 then { kind with turn := none } else kind }
    let n := (Node.handle env p (start.setBuffers start.forwarder.buffers) .unbounded).2.1
    let answer := n.answerFrame env p.frame
    n.store ≠ start.store ∧ (n.forwarder.network.members "b:2").store = start.store ∧
      answer.2 = p.replyOk.frame ∧ answer.1.store = n.store ∧
      (answer.1.forwarder.network.members "b:2").store = n.store := by
  intro p env kind start n
  have henv : env.network = network := rfl
  have hengine : env.engine = Extent.Store.engine := rfl
  have hread : (Packet.decode start.forwarder.buffers (.ofBytes p.frame)).1 = .ok p := by
    decide +kernel
  have hp : p.Decodable := Packet.decodable_of_decode hread
  have haccepted : (applied Extent.Store.engine p start.store).1.header.result = .ok := by
    decide +kernel
  have hparse : Request.parseFollowers p = .ok ["b:2"] := by decide +kernel
  have hfate : ∀ i, start.forwarder.network.fates i = kind ∨
      i = 2 ∧ start.forwarder.network.fates i = { kind with turn := none } := by
    intro i
    by_cases hi : i = 2
    · exact .inr ⟨hi, if_pos hi⟩
    · exact .inl (if_neg hi)
  have hfair : kind.Fair Extent.Store.engine :=
    Fate.fair_kind (Node.environment {} .unreachable 0)
  have hloyal : ∀ i, (start.forwarder.network.fates i).Loyal Extent.Store.engine ["b:2"] := by
    intro i
    rcases hfate i with hi | ⟨-, hi⟩ <;> rw [hi]
    · exact hfair.loyal ["b:2"]
    · exact ⟨(hfair.loyal ["b:2"]).before, by simp⟩
  have hlines : ∀ number, start.forwarder.network.lines number = none := fun _ ↦ rfl
  have hstart : Retried Extent.Store.engine p ["b:2"] start.store start :=
    .begun (.started _ _ _ _ hlines) hloyal ⟨0, rfl⟩ (fun _ _ ↦ ⟨0, rfl⟩) (by simp [hlines])
  have hopcode : p.header.opcode = .write ∨ p.header.opcode = .createExtent := .inr rfl
  have hremaining : 0 < p.header.remaining := by decide
  have hnodup : ["b:2"].Nodup := List.nodup_singleton "b:2"
  have hhalfway : Halfway (retryOfAccepted hp hopcode haccepted hparse hremaining hnodup) start :=
    Retried.halfway hstart
  have hadvanced := hhalfway.advanced henv hengine start.forwarder.buffers .unbounded
  rw [packet_retryOfAccepted] at hadvanced
  have hfates : n.forwarder.network.fates = start.forwarder.network.fates := hadvanced.1.fates_eq
  have hclock : n.forwarder.network.clock = 3 := by decide +kernel
  have hidle : n.forwarder.links.idle = [] := by decide +kernel
  have hworking : Working Extent.Store.engine ["b:2"] n.forwarder := by
    refine ⟨fun i hi ↦ ?_, by simp [hidle], by decide +kernel, by decide +kernel⟩
    rw [hfates]
    rcases hfate i with hi' | ⟨rfl, -⟩
    · rw [hi']
      exact hfair
    · omega
  have hn : Retried Extent.Store.engine p ["b:2"] start.store n :=
    .attempted henv hengine hstart start.forwarder.buffers .unbounded
  obtain ⟨hwritten, hstore, hmembers⟩ :=
    retry_repairs henv hengine hp hopcode haccepted hparse hremaining hnodup hn hworking
  have hafter : (applied Extent.Store.engine p start.store).2 = n.store := by decide +kernel
  exact ⟨by decide +kernel, by decide +kernel, hwritten, hstore.trans hafter,
    (hmembers "b:2" (by simp)).trans hafter⟩

end Answers

end ReplicaChain.Cluster
