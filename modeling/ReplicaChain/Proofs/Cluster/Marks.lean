import ReplicaChain.Proofs.Cluster.CleanLinks
import ReplicaChain.Proofs.Cluster.Fairness

/-!
# How far a packet has come

While a node relays a packet, a follower has been told of it on one line or not, and after it was told it
has read the packet or not.  These marks say what is on the line: the packet is on its way to the follower,
or the reply to it is on the way back.  Here followers do nothing by themselves, so that a mark changes
only when the node tells a follower of the packet.
-/

namespace ReplicaChain.Cluster

open Follower (Forwarder Link ReceiveStage Receiving SendStage Sending relayFrame)
open Handling (Relayable applied)
open Wire (Packet)

variable {ω τ : Type}

/-! ## Followers that only act by moves -/

/-- Followers do nothing by themselves while the node uses the network. -/
structure Fate.Still (fate : Fate ω τ) : Prop where
  before_eq : fate.before = []
  turn_eq : fate.turn = none

namespace World

variable {w w' : World ω τ} {link : Link} {line : Line}

def Still (w : World ω τ) : Prop :=
  ∀ i, (w.fates i).Still

def atTime (clock : Nat) (w : World ω τ) : World ω τ :=
  { w with clock }

theorem next_of_still (hw : w.Still) : w.next = (w.fates w.clock, w.atTime (w.clock + 1)) := by
  simp only [next, (hw w.clock).before_eq]
  rfl

/-- No lines but those with the given numbers have changed. -/
structure Differs (numbers : List Nat) (w w' : World ω τ) : Prop where
  members_eq : w'.members = w.members
  fates_eq : w'.fates = w.fates
  lines_eq : ∀ number ∉ numbers, w'.lines number = w.lines number

theorem Differs.still {numbers : List Nat} (h : w.Differs numbers w') (hw : w.Still) : w'.Still := by
  rw [Still, h.fates_eq]
  exact hw

theorem Differs.mono {numbers numbers' : List Nat} (h : w.Differs numbers w')
    (hsubset : numbers ⊆ numbers') : w.Differs numbers' w' :=
  ⟨h.members_eq, h.fates_eq, fun number hnumber ↦ h.lines_eq number fun hmem ↦ hnumber (hsubset hmem)⟩

theorem differs_atTime (numbers : List Nat) (clock : Nat) (w : World ω τ) :
    w.Differs numbers (w.atTime clock) :=
  ⟨rfl, rfl, fun _ _ ↦ rfl⟩

theorem differs_setLine (clock : Nat) (number : Nat) (line : Line) (w : World ω τ) :
    w.Differs [number] ((w.atTime clock).setLine number line) :=
  ⟨rfl, rfl, fun _ hne ↦ if_neg (by simpa using hne)⟩

theorem Differs.refl (numbers : List Nat) (w : World ω τ) : w.Differs numbers w :=
  ⟨rfl, rfl, fun _ _ ↦ rfl⟩

theorem differs_dialed (clock : Nat) (link : Link) (a : Attempt) (w : World ω τ) :
    w.Differs [link.number] ((w.atTime clock).dialed link a) := by
  unfold dialed
  split
  · exact differs_setLine clock link.number _ w
  · exact differs_atTime _ clock w

theorem dial_of_still (hw : w.Still) {a : Option Attempt} (hd : network.dial link w = (a, w')) :
    w' = a.elim (w.atTime (w.clock + 1)) ((w.atTime (w.clock + 1)).dialed link ·) := by
  simp only [network, next_of_still hw, Prod.mk.injEq] at hd
  obtain ⟨rfl, rfl⟩ := hd
  rfl

theorem await_of_still (hw : w.Still) {a : Attempt} (hd : network.await link w = (a, w')) :
    w' = (w.atTime (w.clock + 1)).dialed link a := by
  simp only [network, next_of_still hw, Prod.mk.injEq] at hd
  obtain ⟨rfl, rfl⟩ := hd
  rfl

theorem write_of_still (hw : w.Still) {b : ByteArray} {result : Except IoFault Unit}
    (hwrite : network.write link b w = (result, w')) :
    w.Differs [link.number] w' ∧ ∀ line, w.lines link.number = some line → result = .ok () →
      w' = (w.atTime (w.clock + 1)).setLine link.number (line.ask b none) := by
  simp only [network, next_of_still hw] at hwrite
  split at hwrite
  · rename_i hnone
    obtain ⟨rfl, rfl⟩ := Prod.mk.inj hwrite
    refine ⟨differs_atTime _ _ w, fun line hline _ ↦ ?_⟩
    exact absurd (hnone.symm.trans hline) (by simp)
  · rename_i line hline
    obtain ⟨rfl, rfl⟩ := Prod.mk.inj hwrite
    refine ⟨differs_setLine _ _ _ w, fun line' hline' hok ↦ ?_⟩
    obtain rfl := Option.some.inj (hline.symm.trans hline')
    cases hrefusal : (w.fates w.clock).refusal with
    | none => rfl
    | some refusal => simp [hrefusal] at hok

/-- A reader is offered what has arrived, and what it takes is taken off the line. -/
theorem incoming_of_still (hw : w.Still) (hline : w.lines link.number = some line) {s : Source}
    (hi : network.incoming link w = (s, w')) :
    ∃ arrived, s.bytes = line.arriving arrived ∧ ∀ rest, network.leave link rest w' =
      (w.atTime (w.clock + 1)).setLine link.number
        ({ line with offered := (line.arriving arrived).size }.collect rest.size) := by
  have hturn : w.next.1.turn.elim w.next.2 (w.next.2.answer link.number ·) =
      w.atTime (w.clock + 1) := by
    rw [next_of_still hw, (hw w.clock).turn_eq]
    rfl
  have hline' : (w.atTime (w.clock + 1)).lines link.number = some line := hline
  rw [← hturn] at hline'
  rw [incoming_eq w hline', hturn] at hi
  obtain ⟨rfl, rfl⟩ := Prod.mk.inj hi
  exact ⟨_, w.next.1.join_cut _, fun rest ↦ leave_setLine link rest _ _⟩

end World

/-- Relaying to one follower concerns the line of its link alone. -/
theorem differs_sending {f f' : Forwarder (World ω τ)} {p : Packet} {address : String}
    {stage stage' : SendStage} (hw : f.network.Still)
    (ha : Sending.Advances network (relayFrame p) address stage f stage' f') :
    f.network.Differs ((heldBySending p (address, stage')).toList.map (·.link.number))
      f'.network := by
  cases ha with
  | refused hr => exact .refl _ _
  | idle hr => exact .refl _ _
  | dialing hr hd =>
    rw [World.dial_of_still hw hd]
    exact World.differs_atTime _ _ _
  | @dialed f link _ _ hr hd =>
    rw [World.dial_of_still hw hd]
    exact World.differs_dialed _ link .succeeded _
  | undialed fault hr hd hfailed =>
    rw [World.dial_of_still hw hd, Option.elim_some, World.dialed, if_neg hfailed]
    exact World.differs_atTime _ _ _
  | @awaited f link _ hd =>
    rw [World.await_of_still hw hd]
    exact World.differs_dialed _ link .succeeded _
  | unawaited fault hd hfailed =>
    rw [World.await_of_still hw hd, World.dialed, if_neg hfailed]
    exact World.differs_atTime _ _ _
  | written hwrite => exact (World.write_of_still hw hwrite).1
  | unwritten hwrite => exact (World.write_of_still hw hwrite).1
  | settled => exact .refl _ _

/-! ## Marks -/

/-- How far a packet has come with one follower. -/
inductive Mark where
  /-- The follower was not told of the packet. -/
  | untold
  /-- The packet is on its way to the follower. -/
  | told
  /-- The follower has read the packet, and it has accepted it or not. -/
  | heard (accepted : Bool)
  deriving DecidableEq, Repr

/-- What is on a line on which `p` was relayed. -/
def Line.Carries (p : Packet) (line : Line) : Mark → Prop
  | .untold => False
  | .told => line.outbound = relayFrame p ∧ line.inbound = .empty
  | .heard accepted => line.outbound = .empty ∧ ∃ code body rest,
      line.inbound ++ rest = (p.alone.reply code body).frame ∧ (code = .ok ↔ accepted = true)

/-- What the mark of a follower says about the relay to it.  No relay has failed. -/
def Marked (m : Mark) : SendStage → Prop
  | .waiting | .dialing _ | .connected _ => m = .untold
  | .settled (some _) none => True
  | .settled _ _ => False

/-- What the mark of a follower says about its reply. -/
def Answered (m : Mark) : ReceiveStage → Prop
  | .pending (some _) => True
  | .settled (some _) none => m = .heard true
  | .settled (some _) (some _) => ∃ accepted, m = .heard accepted
  | _ => False

/-- Every line on which `p` was relayed and from which nothing was read carries what its mark says. -/
def Carried (p : Packet) (m : Mark) (w : World ω τ) (held : List Held) : Prop :=
  ∀ x ∈ held, x.phase = .asked p → ∃ line, w.lines x.link.number = some line ∧ line.Carries p m

/-- A line is as it was, or it is open and nothing is on its way to the follower but the packet of which
it was just told. -/
def Line.Follows (p : Packet) (m : Mark) (x : Held) (w : World ω τ) (line : Line) : Prop :=
  w.lines x.link.number = some line ∨ line.closed = false ∧
    (line.outbound = .empty ∨ line.link = x.link ∧ m = .told ∧ line.outbound = relayFrame p)

/-- What an exchange with one follower does to its line, with the links that are held for it before and
after. -/
structure Exchanged (p : Packet) (m m' : Mark) (old new : List Held) (w w' : World ω τ) : Prop where
  differs : w.Differs (new.map (·.link.number)) w'
  carried : Carried p m' w' new
  follows : ∀ x ∈ new, ∀ line, w'.lines x.link.number = some line → line.Follows p m' x w
  keeps : m = .told → m' = .told ∧ ∀ x ∈ old, ∃ y ∈ new, y.link = x.link ∧ y.address = x.address

section Exchanges

variable {p : Packet} {m : Mark} {address : String} {others : List Held} {w : World ω τ}
  {f f' : Forwarder (World ω τ)}

/-- What was as it is follows from itself. -/
theorem exchanged_self {held : List Held} {w' : World ω τ} (hw : w.Differs [] w')
    (hcarried : Carried p m w held) : Exchanged p m m held held w w' where
  differs := ⟨hw.members_eq, hw.fates_eq, fun number _ ↦ hw.lines_eq number List.not_mem_nil⟩
  carried x hx hasked := by
    rw [hw.lines_eq x.link.number List.not_mem_nil]
    exact hcarried x hx hasked
  follows x hx line hline := by
    rw [hw.lines_eq x.link.number List.not_mem_nil] at hline
    exact .inl hline
  keeps hm := ⟨hm, fun x hx ↦ ⟨x, hx, rfl, rfl⟩⟩

/-- Nothing is on its way on a line that was just dialed. -/
theorem follows_dialed (link : Link) {clock : Nat} {x : Held}
    (hx : x ∈ [(⟨address, link, .clean⟩ : Held)]) (line : Line)
    (hline : ((w.atTime clock).dialed link .succeeded).lines x.link.number = some line) :
    line.Follows p m x w := by
  obtain rfl := List.mem_singleton.mp hx
  obtain rfl : Line.fresh link = line := by simpa [World.dialed, World.setLine] using hline
  exact .inr ⟨rfl, .inl rfl⟩

/-- As long as a relay goes on without a failure, the follower is told of the packet or its mark stays. -/
theorem exchanged_sending {stage stage' : SendStage} (hw : f.network.Still)
    (ha : Sending.Advances network (relayFrame p) address stage f stage' f')
    (h : Tidy ((heldBySending p (address, stage)).toList ++ others) f.links f.network)
    (hm : Marked m stage) (hcarried : Carried p m f.network (heldBySending p (address, stage)).toList)
    (hsound : ∀ link fault, stage' ≠ .settled link (some fault)) :
    ∃ m', Marked m' stage' ∧ (m' = m ∨ m = .untold ∧ m' = .told) ∧
      Exchanged p m m' (heldBySending p (address, stage)).toList
        (heldBySending p (address, stage')).toList f.network f'.network := by
  have hdiffers := differs_sending hw ha
  cases ha with
  | refused hr => exact absurd rfl (hsound _ _)
  | undialed fault hr hd hfailed => exact absurd rfl (hsound _ _)
  | unawaited fault hd hfailed => exact absurd rfl (hsound _ _)
  | unwritten hwrite => exact absurd rfl (hsound _ _)
  | settled => exact ⟨m, hm, .inl rfl, exchanged_self (.refl _ _) hcarried⟩
  | idle hr =>
    obtain rfl : m = .untold := hm
    refine ⟨.untold, rfl, .inl rfl, hdiffers, by simp [Carried, heldBySending], ?_, by simp⟩
    exact fun x _ line hline ↦ .inl hline
  | dialing hr hd =>
    obtain rfl : m = .untold := hm
    refine ⟨.untold, rfl, .inl rfl, hdiffers, by simp [Carried, heldBySending], ?_, by simp⟩
    rw [World.dial_of_still hw hd]
    exact fun x _ line hline ↦ .inl hline
  | @dialed f link _ _ hr hd =>
    obtain rfl : m = .untold := hm
    refine ⟨.untold, rfl, .inl rfl, hdiffers, by simp [Carried, heldBySending], ?_, by simp⟩
    rw [World.dial_of_still hw hd]
    exact fun x hx ↦ follows_dialed link hx
  | @awaited f link _ hd =>
    obtain rfl : m = .untold := hm
    refine ⟨.untold, rfl, .inl rfl, hdiffers, by simp [Carried, heldBySending], ?_, by simp⟩
    rw [World.await_of_still hw hd]
    exact fun x hx ↦ follows_dialed link hx
  | @written f link _ hwrite =>
    obtain rfl : m = .untold := hm
    obtain ⟨line, hline, hlink, hclean⟩ := (Tidy.bears_head h).exists_line (by simp)
    obtain rfl := (World.write_of_still hw hwrite).2 line hline rfl
    let line' := line.ask (relayFrame p) none
    have hout : line'.outbound = relayFrame p := by
      simp [line', Line.ask, hclean.outbound_eq]
    refine ⟨.told, trivial, .inr ⟨rfl, rfl⟩, hdiffers, ?_, ?_, by simp⟩
    · intro x hx _
      obtain rfl : x = ⟨address, link, .asked p⟩ := List.mem_singleton.mp hx
      exact ⟨line', if_pos rfl, hout, hclean.inbound_eq⟩
    · intro x hx l hl
      obtain rfl : x = ⟨address, link, .asked p⟩ := List.mem_singleton.mp hx
      obtain rfl : line' = l := by simpa [World.setLine] using hl
      exact .inr ⟨hclean.not_closed, .inr ⟨hlink, rfl, hout⟩⟩

/-- A follower whose reply is on the way has read the packet. -/
theorem Line.Carries.heard {line : Line} (h : line.Carries p m) (hsize : line.inbound.size ≠ 0) :
    ∃ accepted, m = .heard accepted := by
  cases m with
  | untold => exact h.elim
  | told => simp [h.2] at hsize
  | heard accepted => exact ⟨accepted, rfl⟩

/-- Reading from a line from which the follower has read all changes no mark. -/
theorem exchanged_collect {link : Link} {line : Line} {phase : Phase} (clock : Nat) (n : Nat)
    (hphase : phase ≠ .asked p) (hclosed : line.closed = false) (hout : line.outbound = .empty) :
    Exchanged p m m [⟨address, link, .asked p⟩] [⟨address, link, phase⟩] w
      ((w.atTime clock).setLine link.number (line.collect n)) where
  differs := World.differs_setLine clock link.number _ w
  carried x hx hasked := by
    obtain rfl := List.mem_singleton.mp hx
    exact absurd hasked hphase
  follows x hx line' hline' := by
    obtain rfl := List.mem_singleton.mp hx
    obtain rfl : line.collect n = line' := by simpa [World.setLine] using hline'
    exact .inr ⟨hclosed, .inl hout⟩
  keeps hm := by
    refine ⟨hm, fun x hx ↦ ?_⟩
    obtain rfl := List.mem_singleton.mp hx
    exact ⟨_, List.mem_singleton_self _, rfl, rfl⟩

/-- Collecting a reply that has arrived changes no mark, and a reply that is found to acknowledge the
packet is that of a follower that has accepted it. -/
theorem exchanged_receiving {stage : ReceiveStage} (hp : Relayable p) (hw : f.network.Still)
    (h : Tidy ((heldByReceiving p (address, stage)).toList ++ others) f.links f.network)
    (hm : Answered m stage)
    (hcarried : Carried p m f.network (heldByReceiving p (address, stage)).toList)
    (hready : ∀ link, stage = .pending (some link) → ∀ line,
      f.network.lines link.number = some line → line.inbound.size ≠ 0) :
    let advanced := Receiving.advance network p.header.requestId address stage f
    Answered m advanced.1 ∧ Exchanged p m m (heldByReceiving p (address, stage)).toList
      (heldByReceiving p (address, advanced.1)).toList f.network advanced.2.network := by
  rcases stage with (_ | link) | ⟨link, fault⟩
  · exact hm.elim
  · obtain ⟨line, hline, hlink, hasked⟩ := (Tidy.bears_head h).exists_line (by simp)
    obtain ⟨line₁, hline₁, hcarries⟩ := hcarried _ List.mem_cons_self rfl
    obtain rfl := Option.some.inj (hline.symm.trans hline₁)
    obtain ⟨accepted, rfl⟩ := hcarries.heard (hready link rfl line hline)
    obtain ⟨hout, code, body, t, hreply, haccepted⟩ := hcarries
    rcases hi : network.incoming link f.network with ⟨s, w'⟩
    obtain ⟨arrived, hs, hleave⟩ := World.incoming_of_still hw hline hi
    rcases hd : Packet.decode f.buffers s with ⟨fault | reply, buffers, rest⟩
    · simp only [Receiving.advance, Forwarder.receiveOne, hi, hd, hleave]
      exact ⟨⟨accepted, rfl⟩, exchanged_collect _ _ (by simp) hasked.not_closed hout⟩
    · obtain ⟨rfl, -⟩ := Line.collect_reply hp.decodable.isFrame_relayFrame.isCanonical hreply hs hd
      cases hcheck : Follower.checkReply address p.header.requestId
          (p.alone.reply code body).received with
      | none =>
        have hok : code = .ok := by
          unfold Follower.checkReply at hcheck
          split at hcheck
          · cases hcheck
          · split at hcheck
            · cases hcheck
            · rename_i hresult
              exact not_not.mp hresult
        simp only [Receiving.advance, Forwarder.receiveOne, hi, hd, hleave, hcheck]
        exact ⟨by rw [haccepted.mp hok]; rfl,
          exchanged_collect _ _ (by simp) hasked.not_closed hout⟩
      | some fault =>
        simp only [Receiving.advance, Forwarder.receiveOne, hi, hd, hleave, hcheck]
        exact ⟨⟨accepted, rfl⟩, exchanged_collect _ _ (by simp) hasked.not_closed hout⟩
  · exact ⟨hm, exchanged_self (.refl _ _) hcarried⟩

end Exchanges

/-! ## Followers that read -/

/-- The frame that a follower answers is on one line. -/
theorem World.lines_answer_of_ne {number i : Nat} (hi : i ≠ number) (turn : Turn ω τ)
    (w : World ω τ) : (w.answer number turn).lines i = w.lines i := by
  rcases answer_cases number turn w with hsame | ⟨line, m, line', -, -, -, -, -, -, hanswer⟩
  · rw [hsame]
  · rw [hanswer]
    exact if_neg hi

theorem World.still_answer {w : World ω τ} (hw : w.Still) (number : Nat) (turn : Turn ω τ) :
    (w.answer number turn).Still := by
  rcases answer_cases number turn w with hsame | ⟨line, m, line', -, -, -, -, -, -, hanswer⟩
  · rwa [hsame]
  · rw [hanswer]
    exact hw

/-- A follower that reads a packet applies it and begins to write the reply. -/
theorem World.answer_told {w : World ω τ} {number : Nat} {line : Line} {p : Packet}
    (turn : Turn ω τ) (hp : Relayable p) (hline : w.lines number = some line)
    (hframe : line.outbound = relayFrame p) :
    w.answer number turn = w ∨ ∃ m line' code body t,
      w.answer number turn = (w.setMember line.link.address m).setLine number line' ∧
      m.store = (applied turn.env.engine p (w.members line.link.address).store).2 ∧
      (applied turn.env.engine p (w.members line.link.address).store).1.header.result = code ∧
      line'.link = line.link ∧ line'.closed = line.closed ∧ line'.outbound = .empty ∧
      (line.inbound = .empty → line'.inbound ++ t = (p.alone.reply code body).frame) := by
  cases hserved : line.served with
  | false => exact .inl (by simp only [answer, hline, hserved])
  | true =>
    let m := w.members line.link.address
    have hbytes : (⟨[line.outbound], .silent⟩ : Source).bytes = relayFrame p ++ .empty := by
      simpa [Source.bytes] using hframe
    obtain ⟨buffers, rest, hd, hrest⟩ := hp.decodable.decode_relayFrame m.forwarder.buffers hbytes
    let k : Sink := ⟨.empty, turn.room, turn.refusal⟩
    obtain ⟨code, body, hreply⟩ := Handling.exists_applied_eq_reply turn.env.engine p m.store
    have halone : applied turn.env.engine p.alone m.store =
        (p.alone.reply code body, (applied turn.env.engine p m.store).2) := by
      rw [Handling.applied_alone, hreply]
      rfl
    rcases hw : k.write (applied turn.env.engine p.alone m.store).1.frame with ⟨result, k'⟩
    obtain ⟨-, happlied, hclient⟩ := Node.handle_alone turn.env hp (m.setBuffers buffers) hw
    obtain ⟨t, ht⟩ := exists_written rfl hw
    refine .inr ⟨_, _, code, body, t, answer_eq turn hline hserved hd, ?_, ?_, rfl, rfl, hrest,
      fun hin ↦ ?_⟩
    · exact happlied.trans (congrArg Prod.snd halone :)
    · exact congrArg (·.header.result) hreply
    · have hwritten := congrArg Sink.written hclient
      simp only [hin, ByteArray.empty_append]
      rw [halone] at ht
      exact (congrArg (· ++ t) hwritten).trans ht

/-! ## Closing lines -/

/-- Some lines were closed, and nothing else has changed. -/
structure World.Closes (numbers : List Nat) (w w' : World ω τ) : Prop where
  differs : w.Differs numbers w'
  exists_line : ∀ number line', w'.lines number = some line' → ∃ line,
    w.lines number = some line ∧ (line' = line ∨ line' = { line with closed := true })

namespace World

variable {numbers numbers' : List Nat} {w w' w'' : World ω τ}

theorem Closes.refl (numbers : List Nat) (w : World ω τ) : w.Closes numbers w :=
  ⟨.refl numbers w, fun _ line hline ↦ ⟨line, hline, .inl rfl⟩⟩

theorem Closes.trans (h : w.Closes numbers w') (h' : w'.Closes numbers' w'') :
    w.Closes (numbers ++ numbers') w'' where
  differs := by
    refine ⟨h'.differs.members_eq.trans h.differs.members_eq,
      h'.differs.fates_eq.trans h.differs.fates_eq, fun number hnumber ↦ ?_⟩
    rw [List.mem_append, not_or] at hnumber
    exact (h'.differs.lines_eq number hnumber.2).trans (h.differs.lines_eq number hnumber.1)
  exists_line number line'' hline'' := by
    obtain ⟨line', hline', hcases'⟩ := h'.exists_line number line'' hline''
    obtain ⟨line, hline, hcases⟩ := h.exists_line number line' hline'
    refine ⟨line, hline, ?_⟩
    rcases hcases with rfl | rfl <;> rcases hcases' with rfl | rfl
    · exact .inl rfl
    · exact .inr rfl
    · exact .inr rfl
    · exact .inr rfl

/-- What was closed stays closed. -/
theorem Closes.closed (h : w.Closes numbers w') {number : Nat}
    (hclosed : ∀ line, w.lines number = some line → line.closed = true) {line' : Line}
    (hline' : w'.lines number = some line') : line'.closed = true := by
  obtain ⟨line, hline, rfl | rfl⟩ := h.exists_line number line' hline'
  · exact hclosed _ hline
  · rfl

theorem closes_close (link : Link) (w : World ω τ) :
    w.Closes [link.number] (network.close link w) ∧
      ∀ line, (network.close link w).lines link.number = some line → line.closed = true := by
  simp only [network]
  split
  · rename_i hnone
    exact ⟨.refl _ w, by simp [hnone]⟩
  · rename_i line hline
    refine ⟨⟨differs_setLine w.clock link.number _ w, fun number line' hline' ↦ ?_⟩, ?_⟩
    · by_cases hnumber : number = link.number
      · subst hnumber
        obtain rfl : { line with closed := true } = line' := by simpa [setLine] using hline'
        exact ⟨line, hline, .inr rfl⟩
      · exact ⟨line', by simpa [setLine, hnumber] using hline', .inl rfl⟩
    · intro line' hline'
      obtain rfl : { line with closed := true } = line' := by simpa [setLine] using hline'
      rfl

end World

/-- Settling the links of a packet closes some of their lines, and all of them after a failure. -/
theorem closes_settle (ok : Bool) (phase : Phase) (slots : List (String × Option Link))
    (f : Forwarder (World ω τ)) :
    let numbers := (slots.filterMap (heldInSlot phase)).map (·.link.number)
    let g := slots.foldl (Handling.settle network ok) f
    f.network.Closes numbers g.network ∧ (ok = false → ∀ number ∈ numbers, ∀ line,
      g.network.lines number = some line → line.closed = true) := by
  induction slots generalizing f with
  | nil => exact ⟨.refl _ _, by simp⟩
  | cons slot slots ih =>
    obtain ⟨address, _ | link⟩ := slot
    · exact ih f
    · obtain ⟨hcloses, hall⟩ := ih (Handling.settle network ok f (address, some link))
      have hfirst : f.network.Closes [link.number]
          (Handling.settle network ok f (address, some link)).network := by
        cases ok with
        | false => exact (World.closes_close link f.network).1
        | true =>
          simp only [Handling.settle, if_true, Forwarder.release]
          split
          · exact .refl _ _
          · exact (World.closes_close link f.network).1
      refine ⟨hfirst.trans hcloses, ?_⟩
      rintro rfl number hnumber line hline
      rcases List.mem_cons.mp hnumber with rfl | hnumber
      · exact hcloses.closed (World.closes_close link f.network).2 hline
      · exact hall rfl number hnumber line hline

end ReplicaChain.Cluster
