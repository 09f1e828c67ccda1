import ReplicaChain.Proofs.Cluster.Custody
import ReplicaChain.Proofs.Node.ConnectionFold

/-!
# When nothing goes wrong

In a fair world every dial succeeds, every write gets through, every follower answers in time, and
followers serve nobody else.  Then a member is at rest, with some storage and nothing on its way to
it, or it was told of a packet, and either the packet is still on its way or the member has applied it
and the whole reply is on its way back.  What is done on one link does not disturb the members at
other addresses.
-/

namespace ReplicaChain.Cluster

open Follower (Link relayFrame)
open Handling (Relayable applied)
open Wire (Packet)

variable {ω τ : Type} {engine : Extent.Engine ω}

/-! ## Fairness -/

/-- A follower works with the given engine, and the line takes all of its answer. -/
structure Turn.Fair (engine : Extent.Engine ω) (turn : Turn ω τ) : Prop where
  engine_eq : turn.env.engine = engine
  room_eq : turn.room = none

/-- Followers do nothing but answer what reaches them. -/
def Happening.Fair (engine : Extent.Engine ω) : Happening ω τ → Prop
  | .answers _ turn => turn.Fair engine
  | .changes _ _ => False
  | .hangsUp _ => False

/-- The network does what it is used for. -/
structure Fate.Fair (engine : Extent.Engine ω) (fate : Fate ω τ) : Prop where
  before : ∀ h ∈ fate.before, h.Fair engine
  dial : ∀ a, fate.dial = some a → a = .succeeded
  await : fate.await = .succeeded
  refusal : fate.refusal = none
  turn : ∃ turn, fate.turn = some turn ∧ turn.Fair engine
  arrived : fate.arrived = none

theorem Fate.fair_kind (env : Environment ω τ) : (kind env).Fair env.engine where
  before := by simp [kind]
  dial := by
    intro a ha
    exact (Option.some.inj ha).symm
  await := rfl
  refusal := rfl
  turn := ⟨_, rfl, rfl, rfl⟩
  arrived := rfl

/-- All fates to come are fair, and every line is served. -/
structure World.Fair (engine : Extent.Engine ω) (w : World ω τ) : Prop where
  fates : ∀ i, (w.fates i).Fair engine
  served : ∀ number line, w.lines number = some line → line.served = true

/-! ## The states of a member -/

/-- A member has a storage, and no byte is on its way to it. -/
structure World.Settled (w : World ω τ) (address : String) (store : ω) : Prop where
  store_eq : (w.members address).store = store
  outbound_eq : ∀ number line, w.lines number = some line → line.link.address = address →
    line.outbound = .empty

/-- A packet was relayed on a link to a member with a storage, and nothing else is on its way to the
member.  The member may have answered it already. -/
structure World.Told (engine : Extent.Engine ω) (p : Packet) (store : ω) (answered : Bool)
    (w : World ω τ) (link : Link) : Prop where
  relayable : Relayable p
  exists_line : ∃ line, w.lines link.number = some line ∧ line.link = link ∧
    line.outbound = (if answered then .empty else relayFrame p) ∧
    line.inbound = if answered then (applied engine p.alone store).1.frame else .empty
  store_eq : (w.members link.address).store =
    if answered then (applied engine p.alone store).2 else store
  outbound_eq : ∀ number line, number ≠ link.number → w.lines number = some line →
    line.link.address = link.address → line.outbound = .empty

/-- Members stay as they are, but for what is done on a link. -/
structure World.Keeps (engine : Extent.Engine ω) (excepted : Option Link) (w w' : World ω τ) :
    Prop where
  fair : w.Fair engine → w'.Fair engine
  settled : ∀ address store, (∀ link ∈ excepted, address ≠ link.address) →
    w.Settled address store → w'.Settled address store
  told : ∀ p store answered link',
    (∀ link ∈ excepted, link'.address ≠ link.address ∧ link'.number ≠ link.number) →
    w.Told engine p store answered link' → ∃ answered, w'.Told engine p store answered link'

/-- Nothing has changed but one line and the member at its other end, and that line is served. -/
structure World.SameBut (number : Nat) (address : String) (w w' : World ω τ) : Prop where
  fates_eq : w'.fates = w.fates
  lines_eq : ∀ i, i ≠ number → w'.lines i = w.lines i
  members_eq : ∀ a, a ≠ address → w'.members a = w.members a
  line : ∀ line, w'.lines number = some line → line.link.address = address ∧ line.served = true

namespace World

variable {w w' w'' : World ω τ} {excepted : Option Link} {link : Link} {number : Nat} {line : Line}
  {p : Packet} {store : ω} {turn : Turn ω τ} {answered : Bool}

theorem Keeps.of_eq (hmembers : w'.members = w.members) (hlines : w'.lines = w.lines)
    (hfates : w'.fates = w.fates) : w.Keeps engine none w' where
  fair h := ⟨by rw [hfates]; exact h.fates, by rw [hlines]; exact h.served⟩
  settled address store _ h :=
    ⟨by rw [hmembers]; exact h.store_eq, by rw [hlines]; exact h.outbound_eq⟩
  told p store answered link _ h := ⟨answered, h.relayable, by rw [hlines]; exact h.exists_line,
    by rw [hmembers]; exact h.store_eq, by rw [hlines]; exact h.outbound_eq⟩

theorem Keeps.refl (w : World ω τ) : w.Keeps engine none w :=
  .of_eq rfl rfl rfl

theorem Keeps.trans (h : w.Keeps engine excepted w') (h' : w'.Keeps engine excepted w'') :
    w.Keeps engine excepted w'' where
  fair hw := h'.fair (h.fair hw)
  settled address store ha hw := h'.settled address store ha (h.settled address store ha hw)
  told p store answered link ha hw := by
    obtain ⟨answered', hw'⟩ := h.told p store answered link ha hw
    exact h'.told p store answered' link ha hw'

theorem Keeps.but (h : w.Keeps engine none w') (excepted : Option Link) :
    w.Keeps engine excepted w' where
  fair := h.fair
  settled address store _ := h.settled address store (by simp)
  told p store answered link _ := h.told p store answered link (by simp)

namespace SameBut

variable {address : String} (h : w.SameBut number address w')
include h

theorem fair (hw : w.Fair engine) : w'.Fair engine := by
  refine ⟨by rw [h.fates_eq]; exact hw.fates, fun i l hl ↦ ?_⟩
  by_cases hi : i = number
  · subst hi
    exact (h.line l hl).2
  · rw [h.lines_eq i hi] at hl
    exact hw.served i l hl

theorem settled {a : String} (ha : a ≠ address) (hs : w.Settled a store) : w'.Settled a store := by
  refine ⟨by rw [h.members_eq a ha]; exact hs.store_eq, fun i l hl hla ↦ ?_⟩
  by_cases hi : i = number
  · subst hi
    exact absurd (hla.symm.trans (h.line l hl).1) ha
  · rw [h.lines_eq i hi] at hl
    exact hs.outbound_eq i l hl hla

theorem told (hn : link.number ≠ number) (ha : link.address ≠ address)
    (ht : w.Told engine p store answered link) : w'.Told engine p store answered link := by
  refine ⟨ht.relayable, ?_, by rw [h.members_eq _ ha]; exact ht.store_eq, fun i l hne hl hla ↦ ?_⟩
  · rw [h.lines_eq _ hn]
    exact ht.exists_line
  · by_cases hi : i = number
    · subst hi
      exact absurd (hla.symm.trans (h.line l hl).1) ha
    · rw [h.lines_eq i hi] at hl
      exact ht.outbound_eq i l hne hl hla

end SameBut

/-! ## What followers do by themselves -/

theorem answer_eq (turn : Turn ω τ) (hline : w.lines number = some line)
    (hserved : line.served = true) {buffers : BufferPool} {rest : Source}
    (hd : Packet.decode (w.members line.link.address).forwarder.buffers
      ⟨[line.outbound], .silent⟩ = (.ok p, buffers, rest)) :
    let handled := Node.handle turn.env p ((w.members line.link.address).setBuffers buffers)
      ⟨.empty, turn.room, turn.refusal⟩
    w.answer number turn = (w.setMember line.link.address handled.2.1).setLine number {
      line with
      outbound := rest.bytes
      inbound := line.inbound ++ handled.2.2.written
      served := handled.1.isNone
      history := .answered (Bytes.take (line.outbound.size - rest.size) line.outbound)
        handled.2.2.written :: line.history } := by
  simp only [answer, hline, hserved, hd]

/-- A follower answers only if something is on its way to it. -/
theorem answer_cases (number : Nat) (turn : Turn ω τ) (w : World ω τ) :
    w.answer number turn = w ∨ ∃ line m line', w.lines number = some line ∧ line.served = true ∧
      line.outbound ≠ .empty ∧ line'.link = line.link ∧ line'.closed = line.closed ∧
      (turn.room = none → line'.served = true) ∧
      w.answer number turn = (w.setMember line.link.address m).setLine number line' := by
  rcases hline : w.lines number with _ | line
  · exact .inl (by simp only [answer, hline])
  cases hserved : line.served with
  | false => exact .inl (by simp only [answer, hline, hserved])
  | true =>
    rcases hd : Packet.decode (w.members line.link.address).forwarder.buffers
      ⟨[line.outbound], .silent⟩ with ⟨fault | p, buffers, rest⟩
    · exact .inl (by simp only [answer, hline, hserved, hd])
    have hnonempty : line.outbound ≠ .empty := by simpa [Source.bytes] using decode_ok_ne_empty hd
    refine .inr ⟨line, _, _, rfl, hserved, hnonempty, ?_, ?_, ?_, answer_eq turn hline hserved hd⟩
    · rfl
    · rfl
    · intro hroom
      obtain ⟨m, out, -, hhandle⟩ := Node.exists_handle_eq turn.env p
        ((w.members line.link.address).setBuffers buffers)
      rw [hhandle ⟨.empty, turn.room, turn.refusal⟩ hroom]
      rfl

/-- A member that was told of a packet and has not answered it answers it. -/
theorem Told.answer (h : w.Told engine p store answered link) (hw : w.Fair engine)
    (ht : turn.Fair engine) : (w.answer link.number turn).Told engine p store true link := by
  obtain ⟨line, hline, hlink, hout, hin⟩ := h.exists_line
  cases answered with
  | true =>
    rcases answer_cases link.number turn w with hsame | ⟨line', _, _, hline', -, hnonempty, -⟩
    · rw [hsame]
      exact h
    · obtain rfl := Option.some.inj (hline.symm.trans hline')
      exact absurd hout hnonempty
  | false =>
    let m := w.members line.link.address
    have hframe : (⟨[line.outbound], .silent⟩ : Source).bytes = relayFrame p ++ .empty := by
      simpa [Source.bytes] using hout
    obtain ⟨buffers, rest, hd, hrest⟩ :=
      h.relayable.decodable.decode_relayFrame m.forwarder.buffers hframe
    have hstore : m.store = store := by simpa [m, hlink] using h.store_eq
    have hreply : applied turn.env.engine p.alone m.store = applied engine p.alone store := by
      rw [ht.engine_eq, hstore]
    have hwrite : (⟨.empty, turn.room, turn.refusal⟩ : Sink).write
        (applied turn.env.engine p.alone m.store).1.frame = (.ok (), _) :=
      Sink.write_of_room_eq_none ht.room_eq _
    obtain ⟨-, happlied, hwritten⟩ :=
      Node.handle_alone turn.env h.relayable (m.setBuffers buffers) hwrite
    have hanswer := answer_eq turn hline (hw.served _ _ hline) hd
    simp only at hanswer
    generalize Node.handle turn.env p.alone (m.setBuffers buffers)
      ⟨.empty, turn.room, turn.refusal⟩ = handled at happlied hwritten hanswer
    rw [hanswer]
    refine ⟨h.relayable, ⟨_, if_pos rfl, hlink, hrest, ?_⟩, ?_, ?_⟩
    · simp [hin, hwritten, Sink.append, hreply]
    · simp only [setLine, setMember, hlink, if_true]
      rw [happlied]
      exact congrArg Prod.snd hreply
    · intro number line' hne hline'
      simp only [setLine, if_neg hne] at hline'
      exact h.outbound_eq number line' hne hline'

theorem keeps_answer (number : Nat) (ht : turn.Fair engine) (hw : w.Fair engine) :
    w.Keeps engine none (w.answer number turn) := by
  rcases answer_cases number turn w with
    hsame | ⟨line, m, line', hline, hserved, hnonempty, hlink, -, hserved', hanswer⟩
  · rw [hsame]
    exact .refl w
  have hsame : w.SameBut number line.link.address (w.answer number turn) := by
    rw [hanswer]
    refine ⟨rfl, fun i hi ↦ if_neg hi, fun a ha ↦ if_neg ha, fun l hl ↦ ?_⟩
    obtain rfl : line' = l := by simpa [setLine] using hl
    exact ⟨by rw [hlink], hserved' ht.room_eq⟩
  refine ⟨hsame.fair, fun address store _ h ↦ hsame.settled (fun ha ↦ ?_) h,
    fun p store answered link _ h ↦ ?_⟩
  · exact hnonempty (h.outbound_eq number line hline ha.symm)
  · by_cases hnumber : number = link.number
    · subst hnumber
      exact ⟨true, h.answer hw ht⟩
    · refine ⟨answered, hsame.told (Ne.symm hnumber) (fun ha ↦ ?_) h⟩
      exact hnonempty (h.outbound_eq number line hnumber hline ha.symm)

theorem keeps_happen {h : Happening ω τ} (hh : h.Fair engine) (hw : w.Fair engine) :
    w.Keeps engine none (w.happen h) := by
  cases h with
  | answers number turn => exact keeps_answer number hh hw
  | changes _ _ => exact hh.elim
  | hangsUp _ => exact hh.elim

theorem keeps_foldl_happen {happenings : List (Happening ω τ)}
    (hh : ∀ h ∈ happenings, h.Fair engine) (hw : w.Fair engine) :
    w.Keeps engine none (happenings.foldl happen w) := by
  induction happenings generalizing w with
  | nil => exact .refl w
  | cons h happenings ih =>
    have hfirst := keeps_happen (hh h List.mem_cons_self) hw
    exact hfirst.trans (ih (fun h' hh' ↦ hh h' (List.mem_cons_of_mem h hh')) (hfirst.fair hw))

/-- Time passes. -/
theorem keeps_next (hw : w.Fair engine) : w.Keeps engine none w.next.2 := by
  have hclock : w.Keeps engine none { w with clock := w.clock + 1 } := .of_eq rfl rfl rfl
  exact hclock.trans (keeps_foldl_happen (hw.fates w.clock).before (hclock.fair hw))

/-! ## What the node does -/

theorem keeps_setLine (hlink : line.link = link) (hserved : line.served = true) :
    w.Keeps engine (some link) (w.setLine link.number line) := by
  have hsame : w.SameBut link.number link.address (w.setLine link.number line) := by
    refine ⟨rfl, fun i hi ↦ if_neg hi, fun _ _ ↦ rfl, fun l hl ↦ ?_⟩
    obtain rfl : line = l := by simpa [setLine] using hl
    exact ⟨by rw [hlink], hserved⟩
  exact ⟨hsame.fair, fun address store ha h ↦ hsame.settled (ha link rfl) h,
    fun p store answered link' ha h ↦
      ⟨answered, hsame.told (ha link rfl).2 (ha link rfl).1 h⟩⟩

/-- Nothing is sent to a member by a change of a line on which nothing is sent. -/
theorem Settled.setLine {address : String} (h : w.Settled address store)
    (hout : line.outbound = .empty) : (w.setLine number line).Settled address store := by
  refine ⟨h.store_eq, fun i l hl ha ↦ ?_⟩
  by_cases hn : i = number
  · obtain rfl : line = l := by simpa [World.setLine, hn] using hl
    exact hout
  · exact h.outbound_eq i l (by simpa [World.setLine, hn] using hl) ha

theorem fair_dialed (hw : w.Fair engine) (link : Link) :
    let w' := w.next.2.dialed link .succeeded
    w.Keeps engine (some link) w' ∧
      ∀ store, w.Settled link.address store → w'.Settled link.address store := by
  have hnext := keeps_next hw
  have hkeeps : w.next.2.Keeps engine (some link) (w.next.2.dialed link .succeeded) :=
    keeps_setLine rfl rfl
  refine ⟨(hnext.but _).trans hkeeps, fun store h ↦ ?_⟩
  have hsettled := hnext.settled link.address store (by simp) h
  exact hsettled.setLine rfl

/-- A dial that is decided at once succeeds. -/
theorem fair_dial (hw : w.Fair engine) {a : Attempt} (hd : network.dial link w = (some a, w')) :
    a = .succeeded ∧ w.Keeps engine (some link) w' ∧
      ∀ store, w.Settled link.address store → w'.Settled link.address store := by
  simp only [network, Prod.mk.injEq] at hd
  obtain ⟨hsome, rfl⟩ := hd
  obtain rfl := (hw.fates w.clock).dial a hsome
  rw [hsome]
  exact ⟨rfl, fair_dialed hw link⟩

theorem keeps_dial (hw : w.Fair engine) (hd : network.dial link w = (none, w')) :
    w.Keeps engine none w' := by
  simp only [network, Prod.mk.injEq] at hd
  obtain ⟨hnone, rfl⟩ := hd
  rw [hnone]
  exact keeps_next hw

/-- A dial that is waited for succeeds. -/
theorem fair_await (hw : w.Fair engine) {a : Attempt} (hd : network.await link w = (a, w')) :
    a = .succeeded ∧ w.Keeps engine (some link) w' ∧
      ∀ store, w.Settled link.address store → w'.Settled link.address store := by
  have hawait : w.next.1.await = .succeeded := (hw.fates w.clock).await
  simp only [network, Prod.mk.injEq] at hd
  obtain ⟨rfl, rfl⟩ := hd
  rw [hawait]
  exact ⟨rfl, fair_dialed hw link⟩

/-- A packet that is relayed on a clean link gets on its way to the member. -/
theorem fair_write {held : List Held} {q : Follower.LinkPool} {address : String}
    (h : Tidy (⟨address, link, .clean⟩ :: held) q w) (hw : w.Fair engine) (hp : Relayable p)
    (hs : w.Settled link.address store) {result : Except IoFault Unit}
    (hwrite : network.write link (relayFrame p) w = (result, w')) :
    result = .ok () ∧ w.Keeps engine (some link) w' ∧ w'.Told engine p store false link := by
  have hnext := keeps_next hw
  have hs' := hnext.settled _ store (by simp) hs
  obtain ⟨line, hline, hlink, hclean⟩ :=
    (h.evolve (World.evolves_next w)).bears_head.exists_line (by simp)
  have hrefusal : w.next.1.refusal = none := (hw.fates w.clock).refusal
  simp only [network, hline, hrefusal, Option.elim_none, Prod.mk.injEq] at hwrite
  obtain ⟨rfl, rfl⟩ := hwrite
  have hserved : line.served = true := (hnext.fair hw).served _ line hline
  refine ⟨rfl, (hnext.but _).trans (keeps_setLine hlink hserved), hp, ?_, hs'.store_eq, ?_⟩
  · refine ⟨_, if_pos rfl, hlink, ?_, hclean.inbound_eq⟩
    simp [Line.ask, hclean.outbound_eq]
  · intro i l hi hl ha
    simp only [setLine, if_neg hi] at hl
    exact hs'.outbound_eq i l hl ha

/-- A reader on a link to a member that was told of a packet is offered the whole reply, and the member
has applied the packet. -/
theorem fair_incoming (hw : w.Fair engine) (h : w.Told engine p store answered link) {s : Source}
    (hi : network.incoming link w = (s, w')) :
    s.bytes = (applied engine p.alone store).1.frame ∧ ∀ rest,
      w.Keeps engine (some link) (network.leave link rest w') ∧
        (network.leave link rest w').Settled link.address (applied engine p.alone store).2 := by
  have hnext := keeps_next hw
  have hfate := hw.fates w.clock
  obtain ⟨turn, hturn, ht⟩ := hfate.turn
  obtain ⟨answered', hnext'⟩ := hnext.told p store answered link (by simp) h
  let w₁ := w.next.2.answer link.number turn
  have hkeeps : w.Keeps engine none w₁ := hnext.trans (keeps_answer link.number ht (hnext.fair hw))
  have hanswered : w₁.Told engine p store true link := hnext'.answer (hnext.fair hw) ht
  obtain ⟨line, hline, hlink, hout, hin⟩ := hanswered.exists_line
  have hturned : w.next.1.turn.elim w.next.2 (w.next.2.answer link.number ·) = w₁ := by
    rw [show w.next.1.turn = some turn from hturn]
    rfl
  have harrived : w.next.1.arrived = none := hfate.arrived
  rw [incoming_eq w (hturned ▸ hline), hturned] at hi
  obtain ⟨rfl, rfl⟩ := Prod.mk.inj hi
  have hserved : line.served = true := ((hkeeps.fair hw).served _ line hline)
  refine ⟨?_, fun rest ↦ ?_⟩
  · rw [if_pos rfl] at hin
    simpa only [Source.bytes, w.next.1.join_cut, harrived, Line.arriving, Option.elim_none] using hin
  rw [leave_setLine]
  refine ⟨(hkeeps.but _).trans (keeps_setLine hlink hserved), hanswered.store_eq, fun i l hl ha ↦ ?_⟩
  by_cases hn : i = link.number
  · obtain rfl : _ = l := by simpa [setLine, hn] using hl
    exact hout
  · exact hanswered.outbound_eq i l hn (by simpa [setLine, hn] using hl) ha

/-- Closing a link is nothing to any member. -/
theorem keeps_close (link : Link) (w : World ω τ) : w.Keeps engine none (network.close link w) := by
  simp only [network]
  split
  · exact .refl w
  rename_i line hline
  let closed : Line := { line with closed := true }
  have hlines {i : Nat} {l : Line} (hl : (w.setLine link.number closed).lines i = some l) :
      ∃ l', w.lines i = some l' ∧ l'.link = l.link ∧ l'.outbound = l.outbound ∧
        l'.served = l.served := by
    by_cases hn : i = link.number
    · subst hn
      obtain rfl : closed = l := by simpa [setLine] using hl
      exact ⟨line, hline, rfl, rfl, rfl⟩
    · exact ⟨l, by simpa [setLine, hn] using hl, rfl, rfl, rfl⟩
  refine ⟨fun hw ↦ ⟨hw.fates, fun i l hl ↦ ?_⟩,
    fun address store _ h ↦ ⟨h.store_eq, fun i l hl ha ↦ ?_⟩,
    fun p store answered link' _ h ↦ ⟨answered, h.relayable, ?_, h.store_eq, fun i l hne hl ha ↦ ?_⟩⟩
  · obtain ⟨l', hl', -, -, hserved⟩ := hlines hl
    rw [← hserved]
    exact hw.served i l' hl'
  · obtain ⟨l', hl', hlink, hout, -⟩ := hlines hl
    rw [← hout]
    exact h.outbound_eq i l' hl' (by rw [hlink, ha])
  · obtain ⟨l, hl, hlink, hbytes⟩ := h.exists_line
    by_cases hn : link'.number = link.number
    · obtain rfl : line = l := by simpa [hn, hline] using hl
      exact ⟨closed, if_pos hn, hlink, hbytes⟩
    · exact ⟨l, by simpa [setLine, hn] using hl, hlink, hbytes⟩
  · obtain ⟨l', hl', hlink, hout, -⟩ := hlines hl
    rw [← hout]
    exact h.outbound_eq i l' hne hl' (by rw [hlink, ha])

end World

end ReplicaChain.Cluster
