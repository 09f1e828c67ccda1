import Mathlib.Logic.Function.Iterate
import ReplicaChain.Proofs.Cluster.CleanLinks
import ReplicaChain.Proofs.Cluster.Fairness
import ReplicaChain.Proofs.Extent.Repetition

/-!
# What failed attempts leave behind

A packet that a client sends again and again, because the node or one of its followers failed, is applied by
some of them and not by others, and by some more than once.  If it succeeds on the storage that all of them
had, and leaves a storage that it does not change any more, then every node has one of the two.  On the
lines of attempts that failed there may be copies of the packet, whole or cut off, that the followers read
later or never.  What they come to does no harm, since it is the same packet again.
-/

namespace ReplicaChain.Cluster

open Follower (Forwarder Link ReceiveStage Receiving SendStage Sending relayFrame)
open Handling (Relayable applied)
open Wire (Packet)

variable {ω τ : Type}

/-! ## Packets that may be repeated -/

def appliedTimes (engine : Extent.Engine ω) (p : Packet) (times : Nat) (store : ω) : ω :=
  (fun store ↦ (applied engine p store).2)^[times] store

/-- A packet that succeeds on a storage, and that does so again on the storage that it leaves and changes
nothing then. -/
structure Retry (ω : Type) where
  engine : Extent.Engine ω
  packet : Packet
  followers : List String
  /-- The storage that the node and its followers had. -/
  before : ω
  relayable : Relayable packet
  parse_eq : Request.parseFollowers packet = .ok followers
  remaining_pos : 0 < packet.header.remaining
  nodup : followers.Nodup
  accepted : (applied engine packet before).1.header.result = .ok
  size_le : (applied engine packet before).1.data.size ≤ Wire.maxPayloadSize
  applied_again : applied engine packet (applied engine packet before).2 =
    applied engine packet before

namespace Retry

variable {r : Retry ω} {store : ω}

def after (r : Retry ω) : ω :=
  (applied r.engine r.packet r.before).2

def reply (r : Retry ω) : ByteArray :=
  (applied r.engine r.packet.alone r.before).1.frame

/-- A storage is as before the packet or as after it. -/
def Knows (r : Retry ω) (store : ω) : Prop :=
  store = r.before ∨ store = r.after

theorem applied_eq (h : r.Knows store) :
    applied r.engine r.packet store = ((applied r.engine r.packet r.before).1, r.after) := by
  rcases h with rfl | rfl
  · rfl
  · exact r.applied_again

/-- The copy for a follower does what the packet does. -/
theorem applied_alone_eq (h : r.Knows store) :
    applied r.engine r.packet.alone store =
      ((applied r.engine r.packet.alone r.before).1, r.after) := by
  rw [Handling.applied_alone, Handling.applied_alone, applied_eq h]

/-- However often the packet is applied, there are two storages. -/
theorem knows_appliedTimes (r : Retry ω) (times : Nat) :
    r.Knows (appliedTimes r.engine r.packet times r.before) := by
  induction times with
  | zero => exact .inl rfl
  | succ times ih =>
    rw [appliedTimes, Function.iterate_succ_apply']
    exact .inr (congrArg Prod.snd (applied_eq ih))

end Retry

/-- What a write or a request to create an extent asks of the storage may be repeated. -/
theorem isRepeatable_of_operationOf {p : Packet} {op : Extent.Operation}
    (hopcode : p.header.opcode = .write ∨ p.header.opcode = .createExtent)
    (hop : Handling.operationOf p = .ok op) : op.IsRepeatable := by
  rcases hopcode with hopcode | hopcode <;> simp only [Handling.operationOf, hopcode] at hop
  · rcases hcrc : p.verifyChecksum with fault | _ <;> simp only [hcrc] at hop
    · cases hop
    · cases hop
      trivial
  · cases hop
    trivial

/-- A write and a request to create an extent that succeed are answered without a body, and succeed again
without a further effect. -/
theorem applied_of_accepted {p : Packet} {store : Extent.Store}
    (hopcode : p.header.opcode = .write ∨ p.header.opcode = .createExtent)
    (haccepted : (applied Extent.Store.engine p store).1.header.result = .ok) :
    (applied Extent.Store.engine p store).1 = p.replyOk ∧
      applied Extent.Store.engine p (applied Extent.Store.engine p store).2 =
        applied Extent.Store.engine p store := by
  rcases hop : Handling.operationOf p with fault | op
  · simp only [applied, Handling.performed, hop] at haccepted
    exact absurd haccepted (p.faultCode_ne_ok .operate fault)
  rcases hperform : store.perform op with fault | ⟨a, store'⟩
  · simp only [applied, Handling.performed, hop, Extent.Store.engine, hperform, Except.mapError]
      at haccepted
    exact absurd haccepted (p.faultCode_ne_ok .operate _)
  have hrepeatable := isRepeatable_of_operationOf hopcode hop
  have hagain := Extent.Store.perform_again hrepeatable hperform
  obtain rfl := Extent.Store.answer_of_isRepeatable hrepeatable hperform
  have hbefore : applied Extent.Store.engine p store = (p.replyOk, store') := by
    simp only [applied, Handling.performed, hop, Extent.Store.engine, hperform, Except.mapError]
    rfl
  have hafter : applied Extent.Store.engine p store' = (p.replyOk, store') := by
    simp only [applied, Handling.performed, hop, Extent.Store.engine, hagain, Except.mapError]
    rfl
  rw [hbefore]
  exact ⟨rfl, hafter⟩

section Accepted

variable {p : Packet} {store : Extent.Store} {followers : List String} (hp : p.Decodable)
  (hopcode : p.header.opcode = .write ∨ p.header.opcode = .createExtent)
  (haccepted : (applied Extent.Store.engine p store).1.header.result = .ok)
  (hparse : Request.parseFollowers p = .ok followers) (hremaining : 0 < p.header.remaining)
  (hnodup : followers.Nodup)

/-- A write or a request to create an extent that succeeds on a storage in memory. -/
def retryOfAccepted : Retry Extent.Store where
  engine := Extent.Store.engine
  packet := p
  followers := followers
  before := store
  relayable := by
    refine ⟨hp, ?_, ?_⟩ <;> rcases hopcode with hopcode | hopcode <;> rw [hopcode] <;> rfl
  parse_eq := hparse
  remaining_pos := hremaining
  nodup := hnodup
  accepted := haccepted
  size_le := by
    rw [(applied_of_accepted hopcode haccepted).1]
    exact Nat.zero_le _
  applied_again := (applied_of_accepted hopcode haccepted).2

theorem packet_retryOfAccepted :
    (retryOfAccepted hp hopcode haccepted hparse hremaining hnodup).packet = p := rfl

theorem after_retryOfAccepted :
    (retryOfAccepted hp hopcode haccepted hparse hremaining hnodup).after =
      (applied Extent.Store.engine p store).2 := rfl

end Accepted

/-! ## Followers that serve nobody else -/

/-- Followers answer what reaches them and end their side of a line when they like.  Nodes that are no
followers do anything. -/
def Happening.Loyal (engine : Extent.Engine ω) (followers : List String) : Happening ω τ → Prop
  | .answers _ turn => turn.env.engine = engine
  | .changes address _ => address ∉ followers
  | .hangsUp _ => True

/-- Whatever goes wrong, no follower serves anybody else. -/
structure Fate.Loyal (engine : Extent.Engine ω) (followers : List String) (fate : Fate ω τ) : Prop where
  before : ∀ h ∈ fate.before, h.Loyal engine followers
  turn : ∀ turn ∈ fate.turn, turn.env.engine = engine

/-- Where nothing goes wrong, no follower serves anybody else. -/
theorem Fate.Fair.loyal {engine : Extent.Engine ω} {fate : Fate ω τ} (h : fate.Fair engine)
    (followers : List String) : fate.Loyal engine followers := by
  refine ⟨fun happening hh ↦ ?_, fun turn hturn ↦ ?_⟩
  · have hfair := h.before happening hh
    cases happening with
    | answers number turn => exact hfair.engine_eq
    | changes address m => exact hfair.elim
    | hangsUp number => exact hfair.elim
  · obtain ⟨turn', hsome, hfair⟩ := h.turn
    obtain rfl := Option.some.inj (hsome.symm.trans hturn)
    exact hfair.engine_eq

namespace World

variable {r : Retry ω} {w w' w'' : World ω τ} {number : Nat} {line : Line} {link : Link}
  {turn : Turn ω τ} {address : String} {m : Node ω τ}

/-- Every follower has the storage from before the packet or the one from after it, and what is on its way
to it on one line is the beginning of a copy of the packet. -/
structure Partway (r : Retry ω) (w : World ω τ) : Prop where
  loyal : ∀ i, (w.fates i).Loyal r.engine r.followers
  knows : ∀ address ∈ r.followers, r.Knows (w.members address).store
  outbound : ∀ number line, w.lines number = some line → line.link.address ∈ r.followers →
    ∃ t, line.outbound ++ t = relayFrame r.packet

/-- Such a world is reached from another, and no follower lost on the way what it had applied. -/
structure Continues (r : Retry ω) (w w' : World ω τ) : Prop where
  partway : w'.Partway r
  fates_eq : w'.fates = w.fates
  clock_le : w.clock ≤ w'.clock
  applied : ∀ address ∈ r.followers, (w.members address).store = r.after →
    (w'.members address).store = r.after

theorem Continues.trans (h : w.Continues r w') (h' : w'.Continues r w'') : w.Continues r w'' where
  partway := h'.partway
  fates_eq := h'.fates_eq.trans h.fates_eq
  clock_le := Nat.le_trans h.clock_le h'.clock_le
  applied address ha hstore := h'.applied address ha (h.applied address ha hstore)

namespace Partway

theorem refl (h : w.Partway r) : w.Continues r w :=
  ⟨h, rfl, Nat.le_refl _, fun _ _ hstore ↦ hstore⟩

theorem setLine (h : w.Partway r)
    (hout : line.link.address ∈ r.followers → ∃ t, line.outbound ++ t = relayFrame r.packet) :
    w.Continues r (w.setLine number line) := by
  refine ⟨⟨h.loyal, h.knows, fun i l hl ha ↦ ?_⟩, rfl, Nat.le_refl _, fun _ _ hstore ↦ hstore⟩
  by_cases hi : i = number
  · obtain rfl : line = l := by simpa [World.setLine, hi] using hl
    exact hout ha
  · exact h.outbound i l (by simpa [World.setLine, hi] using hl) ha

theorem setMember (h : w.Partway r) (hm : address ∈ r.followers → m.store = r.after) :
    w.Continues r (w.setMember address m) := by
  have hstore {a : String} (ha : a ∈ r.followers) :
      ((w.setMember address m).members a).store = r.after ∨
        (w.setMember address m).members a = w.members a := by
    by_cases hsame : a = address
    · subst hsame
      exact .inl (by simpa [World.setMember] using hm ha)
    · exact .inr (by simp [World.setMember, hsame])
  refine ⟨⟨h.loyal, fun a ha ↦ ?_, h.outbound⟩, rfl, Nat.le_refl _, fun a ha hafter ↦ ?_⟩
  · rcases hstore ha with hnew | hold
    · exact .inr hnew
    · rw [hold]
      exact h.knows a ha
  · rcases hstore ha with hnew | hold
    · exact hnew
    · rw [hold]
      exact hafter

/-! ## What followers do by themselves -/

/-- A follower cannot answer before all of a copy of the packet has reached it. -/
theorem answer_of_cut (h : w.Partway r) (turn : Turn ω τ) (hline : w.lines number = some line)
    (ha : line.link.address ∈ r.followers) (hcut : line.outbound ≠ relayFrame r.packet) :
    w.answer number turn = w := by
  let m := w.members line.link.address
  obtain ⟨t, ht⟩ := h.outbound number line hline ha
  have hrest : t ≠ .empty := by
    rintro rfl
    rw [ByteArray.append_empty] at ht
    exact hcut ht
  have hfault := Node.decode_of_begins_frame r.relayable.decodable.isFrame_relayFrame ht.symm hrest
    m.forwarder.buffers .silent
  rcases hd : Packet.decode m.forwarder.buffers ⟨[line.outbound], .silent⟩ with
    ⟨fault | q, buffers, rest⟩
  · cases hserved : line.served <;> simp only [World.answer, hline, hserved, m, hd]
  · rw [hd] at hfault
    cases hfault

/-- When it answers a copy of the packet, it has applied the packet, and nothing more is on its way to it. -/
theorem answer_of_copy (h : w.Partway r) (ht : turn.env.engine = r.engine)
    (hline : w.lines number = some line) (ha : line.link.address ∈ r.followers)
    (hserved : line.served = true) (hcopy : line.outbound = relayFrame r.packet) :
    ∃ m line', m.store = r.after ∧ line'.link = line.link ∧ line'.outbound = .empty ∧
      (turn.room = none → line'.served = true ∧ line'.inbound = line.inbound ++ r.reply) ∧
      w.answer number turn = (w.setMember line.link.address m).setLine number line' := by
  let m := w.members line.link.address
  have hframe : (⟨[line.outbound], .silent⟩ : Source).bytes = relayFrame r.packet ++ .empty := by
    simpa [Source.bytes] using hcopy
  obtain ⟨buffers, rest, hd, hrest⟩ :=
    r.relayable.decodable.decode_relayFrame m.forwarder.buffers hframe
  have happlied : applied turn.env.engine r.packet.alone m.store =
      ((applied r.engine r.packet.alone r.before).1, r.after) := by
    rw [ht]
    exact Retry.applied_alone_eq (h.knows _ ha)
  let k : Sink := ⟨.empty, turn.room, turn.refusal⟩
  rcases hwrite : k.write (applied turn.env.engine r.packet.alone m.store).1.frame with ⟨result, k'⟩
  obtain ⟨hnone, hstore, hclient⟩ :=
    Node.handle_alone turn.env r.relayable (m.setBuffers buffers) hwrite
  refine ⟨_, _, ?_, ?_, ?_, ?_, answer_eq turn hline hserved hd⟩
  · rw [hstore]
    change (applied turn.env.engine r.packet.alone m.store).2 = r.after
    rw [happlied]
  · rfl
  · exact hrest
  · intro hroom
    rw [Sink.write_of_room_eq_none hroom] at hwrite
    obtain ⟨rfl, rfl⟩ := Prod.mk.inj hwrite
    have hwritten : (Node.handle turn.env r.packet.alone (m.setBuffers buffers) k).2.2.written =
        r.reply := by
      rw [hclient, happlied]
      exact ByteArray.empty_append
    exact ⟨hnone, congrArg (line.inbound ++ ·) hwritten⟩

/-- A follower that serves a line answers when a whole copy of the packet has reached it, and else not. -/
theorem answer_cases (h : w.Partway r) (ht : turn.env.engine = r.engine)
    (hline : w.lines number = some line) (ha : line.link.address ∈ r.followers) :
    w.answer number turn = w ∧ (line.served = false ∨ line.outbound ≠ relayFrame r.packet) ∨
      line.outbound = relayFrame r.packet ∧
        ∃ m line', m.store = r.after ∧ line'.link = line.link ∧ line'.outbound = .empty ∧
          (turn.room = none → line'.served = true ∧ line'.inbound = line.inbound ++ r.reply) ∧
          w.answer number turn = (w.setMember line.link.address m).setLine number line' := by
  cases hserved : line.served with
  | false => exact .inl ⟨by simp only [World.answer, hline, hserved], .inl rfl⟩
  | true =>
    by_cases hcopy : line.outbound = relayFrame r.packet
    · exact .inr ⟨hcopy, h.answer_of_copy ht hline ha hserved hcopy⟩
    · exact .inl ⟨h.answer_of_cut turn hline ha hcopy, .inr hcopy⟩

theorem answer (h : w.Partway r) (number : Nat) (ht : turn.env.engine = r.engine) :
    w.Continues r (w.answer number turn) := by
  rcases hline : w.lines number with _ | line
  · rw [show w.answer number turn = w by simp only [World.answer, hline]]
    exact h.refl
  by_cases ha : line.link.address ∈ r.followers
  · rcases h.answer_cases ht hline ha with ⟨hsame, -⟩ | ⟨-, m, line', hstore, -, hout, -, hanswer⟩
    · rw [hsame]
      exact h.refl
    · have hset := h.setMember (m := m) fun (_ : line.link.address ∈ r.followers) ↦ hstore
      rw [hanswer]
      refine hset.trans (hset.partway.setLine fun _ ↦ ⟨relayFrame r.packet, ?_⟩)
      rw [hout, ByteArray.empty_append]
  · rcases World.answer_cases number turn w with
      hsame | ⟨line₁, m, line', hline₁, -, -, hlink, -, -, hanswer⟩
    · rw [hsame]
      exact h.refl
    · obtain rfl := Option.some.inj (hline.symm.trans hline₁)
      have hset := h.setMember (m := m) (absurd · ha)
      rw [hanswer]
      exact hset.trans (hset.partway.setLine fun ha' ↦ absurd (hlink ▸ ha') ha)

theorem happen (h : w.Partway r) {happening : Happening ω τ} (hh : happening.Loyal r.engine r.followers) :
    w.Continues r (w.happen happening) := by
  cases happening with
  | answers number turn => exact h.answer number hh
  | changes address m => exact h.setMember (absurd · hh)
  | hangsUp number =>
    simp only [World.happen]
    split
    · exact h.refl
    · rename_i line hline
      exact h.setLine fun ha ↦ h.outbound number line hline ha

theorem foldl_happen (h : w.Partway r) {happenings : List (Happening ω τ)}
    (hh : ∀ happening ∈ happenings, happening.Loyal r.engine r.followers) :
    w.Continues r (happenings.foldl World.happen w) := by
  induction happenings generalizing w with
  | nil => exact h.refl
  | cons happening happenings ih =>
    have hfirst := h.happen (hh happening List.mem_cons_self)
    exact hfirst.trans (ih hfirst.partway fun x hx ↦ hh x (List.mem_cons_of_mem happening hx))

/-- Time passes. -/
theorem next (h : w.Partway r) : w.Continues r w.next.2 := by
  let w₁ : World ω τ := { w with clock := w.clock + 1 }
  have hclock : w.Continues r w₁ :=
    ⟨⟨h.loyal, h.knows, h.outbound⟩, rfl, Nat.le_succ _, fun _ _ hstore ↦ hstore⟩
  exact hclock.trans (hclock.partway.foldl_happen (h.loyal w.clock).before)

/-! ## What the node does -/

theorem dialed (h : w.Partway r) (link : Link) (a : Attempt) : w.Continues r (w.dialed link a) := by
  unfold World.dialed
  split
  · exact h.setLine fun _ ↦ ⟨relayFrame r.packet, ByteArray.empty_append⟩
  · exact h.refl

theorem dial (h : w.Partway r) {a : Option Attempt} (hd : network.dial link w = (a, w')) :
    w.Continues r w' := by
  simp only [network, Prod.mk.injEq] at hd
  obtain ⟨rfl, rfl⟩ := hd
  cases w.next.1.dial with
  | none => exact h.next
  | some a => exact h.next.trans (h.next.partway.dialed link a)

theorem await (h : w.Partway r) {a : Attempt} (hd : network.await link w = (a, w')) :
    w.Continues r w' := by
  simp only [network, Prod.mk.injEq] at hd
  obtain ⟨rfl, rfl⟩ := hd
  exact h.next.trans (h.next.partway.dialed link w.next.1.await)

/-- On a clean line nothing but a copy of the packet gets on its way, whole or cut off. -/
theorem write (h : w.Partway r) {held : List Held} {q : Follower.LinkPool}
    (htidy : Tidy (⟨address, link, .clean⟩ :: held) q w) {result : Except IoFault Unit}
    (hwrite : network.write link (relayFrame r.packet) w = (result, w')) : w.Continues r w' := by
  obtain ⟨line, hline, -, hclean⟩ :=
    (htidy.evolve (evolves_next w)).bears_head.exists_line (by simp)
  simp only [network, hline, Prod.mk.injEq] at hwrite
  obtain ⟨-, rfl⟩ := hwrite
  refine h.next.trans (h.next.partway.setLine fun _ ↦ ?_)
  rcases w.next.1.refusal with _ | ⟨n, fault⟩
  · exact ⟨.empty, by simp [Line.ask, hclean.outbound_eq]⟩
  · exact ⟨Bytes.drop n (relayFrame r.packet), by
      simp [Line.ask, hclean.outbound_eq, Bytes.take_append_drop]⟩

/-- Followers may have answered before a reader is offered anything. -/
theorem turned (h : w.Partway r) (link : Link) :
    w.Continues r (w.next.1.turn.elim w.next.2 (w.next.2.answer link.number ·)) := by
  cases ht : w.next.1.turn with
  | none => exact h.next
  | some turn => exact h.next.trans (h.next.partway.answer link.number ((h.loyal w.clock).turn turn ht))

theorem incoming (h : w.Partway r) {s : Source} (hi : network.incoming link w = (s, w')) :
    w.Continues r w' := by
  have hturned := h.turned link
  simp only [network] at hi
  split at hi
  · obtain ⟨-, rfl⟩ := Prod.mk.inj hi
    exact hturned
  · rename_i line hline
    obtain ⟨-, rfl⟩ := Prod.mk.inj hi
    exact hturned.trans (hturned.partway.setLine fun ha ↦ hturned.partway.outbound _ line hline ha)

theorem leave (h : w.Partway r) (link : Link) (rest : Source) :
    w.Continues r (network.leave link rest w) := by
  simp only [network]
  split
  · exact h.refl
  · rename_i line hline
    exact h.setLine fun ha ↦ h.outbound _ line hline ha

theorem close (h : w.Partway r) (link : Link) : w.Continues r (network.close link w) := by
  simp only [network]
  split
  · exact h.refl
  · rename_i line hline
    exact h.setLine fun ha ↦ h.outbound _ line hline ha

end Partway

end World

end ReplicaChain.Cluster
