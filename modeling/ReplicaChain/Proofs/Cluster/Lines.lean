import ReplicaChain.Proofs.Cluster.World
import ReplicaChain.Proofs.Node.Application

/-!
# What a node can rely on

A line is clean when every frame that was written on it was written whole, was answered by one reply,
and the reply was read whole.  After a packet was relayed on a clean line, the follower has either not
read the frame or has written the reply to it, possibly cut short; there is nothing else on the line
in either direction.  Nothing that followers do by themselves changes this, and a reader that gets a
packet off such a line has read just the reply and left the line clean.
-/

namespace ReplicaChain.Cluster

open Follower (Link relayFrame)
open Handling (Relayable applied)
open Wire (Packet)
open Wire.Packet (IsFrame)

variable {ω τ : Type}

/-! ## Histories -/

/-- Bytes are the frame of a reply to the packet of a frame. -/
def IsReply (frame reply : ByteArray) : Prop :=
  ∃ p code body, IsFrame frame p ∧ reply = (p.reply code body).frame

/-- Every frame was written whole and answered by a reply that was read whole. -/
inductive Complete : List Passage → Prop
  | nil : Complete []
  | exchange {frame reply : ByteArray} {history : List Passage} (hreply : IsReply frame reply)
      (hhistory : Complete history) :
      Complete (.collected reply :: .answered frame reply :: .asked frame true :: history)

/-- Every packet that was read is the reply to the frame that was written last. -/
def Orderly (history : List Passage) : Prop :=
  ∀ newer b older q, history = newer ++ .collected b :: older → IsFrame b q →
    ∃ frame oldest, older = .answered frame b :: .asked frame true :: oldest ∧ IsReply frame b

theorem orderly_nil : Orderly [] := by
  intro newer b older q h
  simp at h

theorem Orderly.cons {history : List Passage} (h : Orderly history) {passage : Passage}
    (hp : ∀ b, passage ≠ .collected b) : Orderly (passage :: history) := by
  intro newer b older q hsplit hq
  cases newer with
  | nil => exact absurd (List.cons.inj hsplit).1 (hp b)
  | cons _ newer => exact h newer b older q (List.cons.inj hsplit).2 hq

theorem Orderly.collected {history : List Passage} (h : Orderly history) {b : ByteArray}
    (hb : ∀ q, IsFrame b q → ∃ frame oldest,
      history = .answered frame b :: .asked frame true :: oldest ∧ IsReply frame b) :
    Orderly (.collected b :: history) := by
  intro newer b' older q hsplit hq
  cases newer with
  | nil =>
    obtain ⟨hcollected, rfl⟩ := List.cons.inj hsplit
    obtain rfl := Passage.collected.inj hcollected
    exact hb q hq
  | cons _ newer => exact h newer b' older q (List.cons.inj hsplit).2 hq

/-! ## The states of a line -/

/-- A line on which nothing is under way. -/
structure Line.Clean (line : Line) : Prop where
  not_closed : line.closed = false
  outbound_eq : line.outbound = .empty
  inbound_eq : line.inbound = .empty
  complete : Complete line.history

/-- A line on which the copy of `p` was relayed and from which nothing was read since. -/
structure Line.Asked (p : Packet) (line : Line) : Prop where
  relayable : Relayable p
  not_closed : line.closed = false
  exists_history : ∃ history, Complete history ∧
    (line.outbound = relayFrame p ∧ line.inbound = .empty ∧
        line.history = .asked (relayFrame p) true :: history ∨
      line.outbound = .empty ∧ (∃ t, IsReply (relayFrame p) (line.inbound ++ t)) ∧
        line.history = .answered (relayFrame p) line.inbound :: .asked (relayFrame p) true :: history)

/-- What a node may know of a line. -/
inductive Phase where
  | clean
  | asked (p : Packet)
  | unknown

/-- A line is as a node knows it to be. -/
def Line.In (line : Line) : Phase → Prop
  | .clean => line.Clean
  | .asked p => line.Asked p
  | .unknown => True

theorem Line.clean_fresh (link : Link) : (fresh link).Clean :=
  ⟨rfl, rfl, rfl, .nil⟩

/-! ## What followers do by themselves -/

/-- A line has become another without taking anything from the node that it may rely on. -/
structure Line.Evolves (line line' : Line) : Prop where
  link_eq : line'.link = line.link
  keeps : ∀ phase, line.In phase → line'.In phase
  orderly : Orderly line.history → Orderly line'.history

theorem Line.Evolves.refl (line : Line) : line.Evolves line :=
  ⟨rfl, fun _ h ↦ h, fun h ↦ h⟩

theorem Line.Evolves.trans {l l' l'' : Line} (h : l.Evolves l') (h' : l'.Evolves l'') :
    l.Evolves l'' :=
  ⟨h'.link_eq.trans h.link_eq, fun phase hl ↦ h'.keeps phase (h.keeps phase hl),
    fun hl ↦ h'.orderly (h.orderly hl)⟩

/-- Whether the follower serves a line, and how much was offered of it, is nothing to rely on. -/
theorem Line.evolves_served (line : Line) (served : Bool) (offered : Nat) :
    line.Evolves { line with served, offered } where
  link_eq := rfl
  keeps := by
    intro phase h
    cases phase with
    | clean => exact ⟨h.not_closed, h.outbound_eq, h.inbound_eq, h.complete⟩
    | asked p => exact ⟨h.relayable, h.not_closed, h.exists_history⟩
    | unknown => exact h
  orderly := id

/-- No packet is read off a line without bytes. -/
theorem decode_ok_ne_empty {pool pool' : BufferPool} {s rest : Source} {p : Packet}
    (hd : Packet.decode pool s = (.ok p, pool', rest)) : s.bytes ≠ .empty := by
  intro hempty
  have hsize := Packet.size_of_decode hd
  rw [← Source.size_bytes s, hempty] at hsize
  have : (0 : Nat) < Wire.Header.byteSize := by decide
  simp at hsize
  omega

/-- What a sink has taken of some bytes is the beginning of them. -/
theorem exists_written {k k' : Sink} {b : ByteArray} {result : Except Fault Unit}
    (hk : k.written = .empty) (hw : k.write b = (result, k')) : ∃ t, k'.written ++ t = b := by
  unfold Sink.write at hw
  split at hw
  · obtain ⟨-, rfl⟩ := Prod.mk.inj hw
    exact ⟨.empty, by simp only [hk, ByteArray.empty_append, ByteArray.append_empty]⟩
  · split at hw
    · obtain ⟨-, rfl⟩ := Prod.mk.inj hw
      exact ⟨.empty, by simp only [hk, ByteArray.empty_append, ByteArray.append_empty]⟩
    · rename_i n _ _
      obtain ⟨-, rfl⟩ := Prod.mk.inj hw
      exact ⟨Bytes.drop n b, by simp only [hk, ByteArray.empty_append, Bytes.take_append_drop]⟩

/-- What a follower writes to answer a relayed frame is the reply to it, or the beginning of the
reply if the line takes no more. -/
theorem isReply_of_write (p : Packet) (hp : Relayable p) (engine : Extent.Engine ω) (store : ω)
    {k k' : Sink} {result : Except Fault Unit} (hk : k.written = .empty)
    (hw : k.write (applied engine p.alone store).1.frame = (result, k')) :
    ∃ t, IsReply (relayFrame p) (k'.written ++ t) := by
  obtain ⟨t, ht⟩ := exists_written hk hw
  obtain ⟨code, body, hreply⟩ := Handling.exists_applied_eq_reply engine p.alone store
  exact ⟨t, p.alone, code, body, hp.decodable.isFrame_relayFrame, by rw [ht, hreply]⟩

/-- A line on which the follower answered the next frame. -/
theorem Line.evolves_answered (turn : Turn ω τ) (m : Node ω τ) {line : Line} {p : Packet}
    {pool buffers : BufferPool} {rest : Source}
    (hd : Packet.decode pool ⟨[line.outbound], .silent⟩ = (.ok p, buffers, rest)) :
    let handled := Node.handle turn.env p m ⟨.empty, turn.room, turn.refusal⟩
    line.Evolves {
      line with
      outbound := rest.bytes
      inbound := line.inbound ++ handled.2.2.written
      served := handled.1.isNone
      history := .answered (Bytes.take (line.outbound.size - rest.size) line.outbound)
        handled.2.2.written :: line.history } := by
  intro handled
  have hbytes : (⟨[line.outbound], .silent⟩ : Source).bytes = line.outbound := by
    simp [Source.bytes]
  have hnonempty : line.outbound ≠ .empty := hbytes ▸ decode_ok_ne_empty hd
  refine ⟨rfl, fun phase h ↦ ?_, fun h ↦ h.cons (by simp)⟩
  cases phase with
  | clean => exact absurd h.outbound_eq hnonempty
  | unknown => trivial
  | asked q =>
    obtain ⟨hq, hclosed, history, hhistory, hcases⟩ := h
    rcases hcases with ⟨hout, hin, hline⟩ | ⟨hout, -⟩
    · have hframe : (⟨[line.outbound], .silent⟩ : Source).bytes = relayFrame q ++ .empty := by
        rw [hbytes, hout, ByteArray.append_empty]
      obtain ⟨buffers', rest', hd', hrest⟩ := hq.decodable.decode_relayFrame pool hframe
      obtain ⟨⟨rfl⟩, rfl, rfl⟩ := by simpa [hd] using hd'
      let k : Sink := ⟨.empty, turn.room, turn.refusal⟩
      rcases hw : k.write (applied turn.env.engine q.alone m.store).1.frame with ⟨result, k'⟩
      obtain ⟨-, -, hclient⟩ := Node.handle_alone turn.env hq m hw
      obtain ⟨t, ht⟩ := isReply_of_write q hq turn.env.engine m.store rfl hw
      have hwhole : Bytes.take (line.outbound.size - rest.size) line.outbound = relayFrame q := by
        rw [← Source.size_bytes, hrest, hout]
        exact Bytes.take_of_size_le (by simp)
      have hwritten : handled.2.2.written = k'.written := congrArg Sink.written hclient
      refine ⟨hq, hclosed, history, hhistory, .inr ⟨hrest, ⟨t, ?_⟩, ?_⟩⟩
      · simpa only [hin, hwritten, ByteArray.empty_append] using ht
      · simp only [hwhole, hin, hline, ByteArray.empty_append]
    · exact absurd hout hnonempty

/-- A world has become another without taking anything from a node that it may rely on. -/
def World.Evolves (w w' : World ω τ) : Prop :=
  ∀ i, Option.Rel Line.Evolves (w.lines i) (w'.lines i)

namespace World

variable {w w' w'' : World ω τ} {number : Nat} {line line' : Line}

theorem Evolves.of_lines_eq (h : w'.lines = w.lines) : w.Evolves w' := by
  intro i
  rw [h]
  cases w.lines i with
  | none => exact .none
  | some line => exact .some (.refl line)

theorem Evolves.refl (w : World ω τ) : w.Evolves w :=
  .of_lines_eq rfl

theorem Evolves.trans (h : w.Evolves w') (h' : w'.Evolves w'') : w.Evolves w'' := by
  intro i
  have hi := h i
  have hi' := h' i
  generalize w.lines i = l, w'.lines i = l', w''.lines i = l'' at hi hi' ⊢
  cases hi with
  | none => exact hi'
  | some h₁ =>
    cases hi' with
    | some h₂ => exact .some (h₁.trans h₂)

theorem evolves_setLine (hl : w.lines number = some line) (h : line.Evolves line') :
    w.Evolves (w.setLine number line') := by
  intro i
  by_cases hi : i = number
  · subst hi
    simp only [setLine, if_true, hl]
    exact .some h
  · simp only [setLine, if_neg hi]
    exact Evolves.refl w i

theorem evolves_answer (number : Nat) (turn : Turn ω τ) (w : World ω τ) :
    w.Evolves (w.answer number turn) := by
  unfold answer
  split
  · exact .refl w
  · rename_i line hl
    dsimp only
    split
    · rename_i buffers _ _ hd
      have hanswered := Line.evolves_answered turn
        ((w.members line.link.address).setBuffers buffers) hd
      exact (evolves_setLine hl hanswered).trans (.of_lines_eq rfl)
    · exact .refl w

theorem evolves_happen (w : World ω τ) (h : Happening ω τ) : w.Evolves (w.happen h) := by
  cases h with
  | answers number turn => exact evolves_answer number turn w
  | changes address m => exact .of_lines_eq rfl
  | hangsUp number =>
    simp only [happen]
    split
    · exact .refl w
    · rename_i line hl
      exact evolves_setLine hl (line.evolves_served false line.offered)

theorem evolves_foldl_happen (happenings : List (Happening ω τ)) (w : World ω τ) :
    w.Evolves (happenings.foldl happen w) := by
  induction happenings generalizing w with
  | nil => exact .refl w
  | cons h happenings ih => exact (evolves_happen w h).trans (ih (w.happen h))

/-- Time passes. -/
theorem evolves_next (w : World ω τ) : w.Evolves w.next.2 := by
  have hclock : w.Evolves { w with clock := w.clock + 1 } := .of_lines_eq rfl
  exact hclock.trans (evolves_foldl_happen _ _)

end World

/-! ## What the node does -/

namespace Line

variable {line : Line} {p q : Packet} {pool pool' : BufferPool} {s rest : Source} {fault : Fault}

theorem Clean.asked (h : line.Clean) (hp : Relayable p) : (line.ask (relayFrame p) none).Asked p := by
  refine ⟨hp, h.not_closed, line.history, h.complete, .inl ⟨?_, h.inbound_eq, rfl⟩⟩
  change line.outbound ++ relayFrame p = relayFrame p
  rw [h.outbound_eq, ByteArray.empty_append]

theorem orderly_ask (h : Orderly line.history) (frame : ByteArray) (refusal : Option (Nat × IoFault)) :
    Orderly (line.ask frame refusal).history := by
  cases refusal <;> exact h.cons (by simp)

/-- What a reader took is the front of what was on its way, and the rest stays there. -/
theorem exists_collect {arrived : Option Nat} (hs : s.bytes = line.arriving arrived)
    (hleft : s.LeftOf rest) :
    ∃ b more, line.inbound = b ++ (rest.bytes ++ more) ∧ s.bytes = b ++ rest.bytes ∧
      ({ line with offered := (line.arriving arrived).size }.collect rest.size).inbound =
        rest.bytes ++ more ∧
      ({ line with offered := (line.arriving arrived).size }.collect rest.size).history =
        .collected b :: line.history := by
  obtain ⟨b, hb⟩ := hleft
  obtain ⟨more, hmore⟩ : ∃ more, line.inbound = line.arriving arrived ++ more := by
    cases arrived with
    | none => exact ⟨.empty, by simp [arriving]⟩
    | some n => exact ⟨Bytes.drop n line.inbound, (Bytes.take_append_drop n line.inbound).symm⟩
  have hinbound : line.inbound = b ++ (rest.bytes ++ more) := by
    calc
      line.inbound = line.arriving arrived ++ more := hmore
      _ = b ++ rest.bytes ++ more := by rw [← hs, hb]
      _ = b ++ (rest.bytes ++ more) := ByteArray.append_assoc
  have hsize : (line.arriving arrived).size - rest.size = b.size := by
    calc
      (line.arriving arrived).size - rest.size = (b ++ rest.bytes).size - rest.size := by
        rw [← hs, hb]
      _ = b.size + rest.size - rest.size := by rw [ByteArray.size_append, Source.size_bytes]
      _ = b.size := Nat.add_sub_cancel ..
  obtain ⟨htake, hdrop⟩ := Bytes.take_drop_append b (rest.bytes ++ more)
  refine ⟨b, more, hinbound, hb, ?_, ?_⟩
  · simp only [collect, hsize, hinbound, hdrop]
  · simp only [collect, hsize, hinbound, htake]

/-- A packet that is read off a line on which there is only a reply, or the front of one, is the reply, and
then nothing is left on the line. -/
theorem collect_reply {r : Packet} {code : Wire.ResultCode} {body t : ByteArray}
    {arrived : Option Nat} (hr : r.header.IsCanonical)
    (hreply : line.inbound ++ t = (r.reply code body).frame) (hs : s.bytes = line.arriving arrived)
    (hd : Packet.decode pool s = (.ok q, pool', rest)) :
    let line' := { line with offered := (line.arriving arrived).size }.collect rest.size
    q = (r.reply code body).received ∧ t = .empty ∧ line'.inbound = .empty ∧
      line'.history = .collected line.inbound :: line.history := by
  intro line'
  have hleft : s.LeftOf rest := by simpa only [hd] using Packet.leftOf_decode pool s
  obtain ⟨b, more, hinbound, hbytes, hin, hline⟩ := exists_collect hs hleft
  have hextends : s.Extends (more ++ t) .closed (.ofBytes (line.inbound ++ t)) :=
    ⟨by rw [Source.bytes_ofBytes, hinbound, hbytes]; simp only [ByteArray.append_assoc], rfl⟩
  obtain ⟨rest', hd', hrest'⟩ := Packet.decode_extends hextends hd
  have hwhole :
      (Source.ofBytes (line.inbound ++ t)).bytes = (r.reply code body).frame ++ .empty := by
    rw [Source.bytes_ofBytes, hreply, ByteArray.append_empty]
  obtain ⟨rfl, hnothing⟩ := Packet.eq_of_decode_reply hr hwhole hd'
  have hall : rest.bytes = .empty ∧ more = .empty ∧ t = .empty := by
    have := hrest'.bytes_eq
    rw [hnothing, eq_comm] at this
    simpa using this
  obtain ⟨hrest, rfl, rfl⟩ := hall
  have hb : line.inbound = b := by rw [hinbound, hrest]; simp
  refine ⟨rfl, rfl, ?_, ?_⟩
  · rw [hin, hrest]
    rfl
  · rw [hline, hb]

/-- A packet that is read after a relay is the reply to it, and then nothing is left on the line. -/
theorem Asked.collect (h : line.Asked p) {arrived : Option Nat}
    (hs : s.bytes = line.arriving arrived) (hd : Packet.decode pool s = (.ok q, pool', rest)) :
    let line' := { line with offered := (line.arriving arrived).size }.collect rest.size
    line'.Clean ∧ q.header.requestId = p.header.requestId ∧
      (Orderly line.history → Orderly line'.history) := by
  intro line'
  obtain ⟨hp, hclosed, history, hhistory, ⟨-, hempty, -⟩ | ⟨hout, ⟨t, hreply⟩, hasked⟩⟩ := h
  · have hnonempty := decode_ok_ne_empty hd
    have hleft : s.LeftOf rest := by simpa only [hd] using Packet.leftOf_decode pool s
    obtain ⟨b, more, hinbound, hbytes, -⟩ := exists_collect hs hleft
    rw [hempty, eq_comm] at hinbound
    simp_all
  · obtain ⟨r, code, body, hr, hframe⟩ := id hreply
    obtain rfl := hr.unique hp.decodable.isFrame_relayFrame
    obtain ⟨rfl, rfl, hin, hline⟩ := collect_reply hr.isCanonical hframe hs hd
    have hb : IsReply (relayFrame p) line.inbound := by simpa using hreply
    refine ⟨⟨hclosed, hout, hin, ?_⟩, rfl, fun horderly ↦ ?_⟩
    · rw [hline, hasked]
      exact .exchange hb hhistory
    · rw [hline]
      exact horderly.collected fun _ _ ↦ ⟨_, history, hasked, hb⟩

/-- Bytes that are no packet leave nothing to say about the line. -/
theorem orderly_collect {arrived : Option Nat} (h : Orderly line.history)
    (hs : s.bytes = line.arriving arrived)
    (hd : Packet.decode pool s = (.error fault, pool', rest)) :
    Orderly ({ line with offered := (line.arriving arrived).size }.collect rest.size).history := by
  have hleft : s.LeftOf rest := by simpa only [hd] using Packet.leftOf_decode pool s
  obtain ⟨b, more, -, hbytes, -, hline⟩ := exists_collect hs hleft
  rw [hline]
  apply h.collected
  intro q hq
  obtain ⟨pool₁, rest₁, hd₁, -⟩ := hq.decode pool
  have hextends : (Source.ofBytes b).Extends rest.bytes s.ending s :=
    ⟨by rw [hbytes, Source.bytes_ofBytes], rfl⟩
  obtain ⟨rest₂, hd₂, -⟩ := Packet.decode_extends hextends hd₁
  simp [hd] at hd₂

end Line

end ReplicaChain.Cluster
