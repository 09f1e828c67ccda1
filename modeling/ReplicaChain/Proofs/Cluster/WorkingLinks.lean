import ReplicaChain.Proofs.Cluster.Remnants

/-!
# Links that work while a packet is sent again

While nothing goes wrong, a follower goes on serving the lines of the links to it.  A dial gives a line that
is served, a write puts a whole copy of the packet on its way, and a reader is offered the whole reply,
whatever copies of the packet earlier attempts have left on other lines.
-/

namespace ReplicaChain.Cluster

open Follower (Link relayFrame)
open Wire (Packet)

variable {ω τ : Type} {r : Retry ω} {held : List Held} {x : Held} {q : Follower.LinkPool}
  {w w' w'' : World ω τ} {address : String}

namespace World

variable {number : Nat} {line : Line} {link : Link} {turn : Turn ω τ} {excepted : Option Link}

/-- The follower at the other end of a line has applied the packet, and all of its reply is on the way. -/
def Answered (r : Retry ω) (w : World ω τ) (line : Line) : Prop :=
  line.outbound = .empty ∧ line.inbound = r.reply ∧ (w.members line.link.address).store = r.after

/-- The follower at the other end of a line has answered the packet or has all of it still to read. -/
def Exchanging (r : Retry ω) (w : World ω τ) (line : Line) : Prop :=
  line.outbound = relayFrame r.packet ∧ line.inbound = .empty ∨ w.Answered r line

/-- A follower serves the line of a link.  If the packet was relayed on it, it comes to its whole reply. -/
def Serves (r : Retry ω) (w : World ω τ) (x : Held) : Prop :=
  ∃ line, w.lines x.link.number = some line ∧ line.link = x.link ∧ line.served = true ∧
    (x.phase = .asked r.packet → w.Exchanging r line)

/-- No link to a follower ceases to work, but for what is done on one link. -/
structure Sustains (r : Retry ω) (excepted : Option Link) (w w' : World ω τ) : Prop where
  continues : w.Continues r w'
  serves : ∀ x : Held, x.link.address ∈ r.followers →
    (∀ link ∈ excepted, x.link.number ≠ link.number) → w.Serves r x → w'.Serves r x

/-- A line on which nothing happens is served as before. -/
theorem Continues.serves (h : w.Continues r w') (hx : x.link.address ∈ r.followers)
    (hlines : w'.lines x.link.number = w.lines x.link.number) (hserves : w.Serves r x) :
    w'.Serves r x := by
  obtain ⟨line, hline, hlink, hserved, hexchanging⟩ := hserves
  refine ⟨line, hlines.trans hline, hlink, hserved, fun hasked ↦ ?_⟩
  rcases hexchanging hasked with hunread | ⟨hout, hin, hstore⟩
  · exact .inl hunread
  · exact .inr ⟨hout, hin, h.applied _ (hlink ▸ hx) hstore⟩

namespace Sustains

theorem of_lines_eq (h : w.Continues r w') (hlines : w'.lines = w.lines) : w.Sustains r none w' :=
  ⟨h, fun _ hx _ hserves ↦ h.serves hx (congrFun hlines _) hserves⟩

theorem trans (h : w.Sustains r excepted w') (h' : w'.Sustains r excepted w'') :
    w.Sustains r excepted w'' :=
  ⟨h.continues.trans h'.continues, fun _ hx hne hserves ↦
    h'.serves _ hx hne (h.serves _ hx hne hserves)⟩

theorem but (h : w.Sustains r none w') (excepted : Option Link) : w.Sustains r excepted w' :=
  ⟨h.continues, fun x hx _ ↦ h.serves x hx (by simp)⟩

end Sustains

/-- What is done on a line concerns no other line. -/
theorem sustains_setLine (h : w.Continues r (w.setLine link.number line)) :
    w.Sustains r (some link) (w.setLine link.number line) :=
  ⟨h, fun _ hx hne hserves ↦ h.serves hx (if_neg (hne link rfl)) hserves⟩

/-! ## What followers do by themselves -/

/-- A follower that comes to answer on a line goes on serving it, and has answered the packet if it was
relayed there. -/
theorem Partway.answer_served (h : w.Partway r) (ht : turn.Fair r.engine)
    (hx : x.link.address ∈ r.followers) (hserves : w.Serves r x) :
    let w' := w.answer x.link.number turn
    ∃ line, w'.lines x.link.number = some line ∧ line.link = x.link ∧ line.served = true ∧
      (x.phase = .asked r.packet → w'.Answered r line) := by
  intro w'
  obtain ⟨line, hline, hlink, hserved, hexchanging⟩ := hserves
  rcases h.answer_cases ht.engine_eq hline (hlink ▸ hx) with
    ⟨hsame, hidle⟩ | ⟨hcopy, m, line', hstore, hlink', hout, hroom, hanswer⟩
  · simp only [w', hsame]
    refine ⟨line, hline, hlink, hserved, fun hasked ↦ (hexchanging hasked).resolve_left ?_⟩
    rintro ⟨hunread, -⟩
    rcases hidle with hunserved | hread
    · simp [hserved] at hunserved
    · exact hread hunread
  · obtain ⟨hserved', hin⟩ := hroom ht.room_eq
    simp only [w', hanswer]
    refine ⟨line', if_pos rfl, hlink'.trans hlink, hserved', fun hasked ↦ ⟨hout, ?_, ?_⟩⟩
    · rcases hexchanging hasked with ⟨-, hempty⟩ | ⟨hread, -⟩
      · rw [hin, hempty, ByteArray.empty_append]
      · exact absurd (hcopy.symm.trans hread) (Packet.relayFrame_ne_empty r.packet)
    · rw [hlink']
      simpa [World.setLine, World.setMember] using hstore

/-- No follower ceases to serve a line when it answers. -/
theorem Partway.sustains_answer (h : w.Partway r) (number : Nat) (ht : turn.Fair r.engine) :
    w.Sustains r none (w.answer number turn) := by
  have hcontinues := h.answer number ht.engine_eq
  refine ⟨hcontinues, fun x hx _ hserves ↦ ?_⟩
  by_cases hnumber : x.link.number = number
  · subst hnumber
    obtain ⟨line, hline, hlink, hserved, hanswered⟩ := h.answer_served ht hx hserves
    exact ⟨line, hline, hlink, hserved, fun hasked ↦ .inr (hanswered hasked)⟩
  · refine hcontinues.serves hx ?_ hserves
    rcases World.answer_cases number turn w with hsame | ⟨_, m, line', -, -, -, -, -, -, hanswer⟩
    · rw [hsame]
    · rw [hanswer]
      exact if_neg hnumber

theorem Partway.sustains_foldl_happen (h : w.Partway r) {happenings : List (Happening ω τ)}
    (hh : ∀ happening ∈ happenings, happening.Fair r.engine) :
    w.Sustains r none (happenings.foldl World.happen w) := by
  induction happenings generalizing w with
  | nil => exact .of_lines_eq h.refl rfl
  | cons happening happenings ih =>
    have hfirst : w.Sustains r none (w.happen happening) := by
      have hfair := hh happening List.mem_cons_self
      cases happening with
      | answers number turn => exact h.sustains_answer number hfair
      | changes _ _ => exact hfair.elim
      | hangsUp _ => exact hfair.elim
    exact hfirst.trans (ih hfirst.continues.partway fun x hx ↦
      hh x (List.mem_cons_of_mem happening hx))

/-- Time passes. -/
theorem Partway.sustains_next (h : w.Partway r) (hfair : (w.fates w.clock).Fair r.engine) :
    w.Sustains r none w.next.2 := by
  let w₁ : World ω τ := { w with clock := w.clock + 1 }
  have hclock : w.Continues r w₁ :=
    ⟨⟨h.loyal, h.knows, h.outbound⟩, rfl, Nat.le_succ _, fun _ _ hstore ↦ hstore⟩
  exact (Sustains.of_lines_eq hclock rfl).trans
    (hclock.partway.sustains_foldl_happen hfair.before)

/-! ## What the node does -/

/-- A link that was dialed works. -/
theorem Partway.sustains_dialed (h : w.Partway r) (hfair : (w.fates w.clock).Fair r.engine)
    (link : Link) :
    let w' := w.next.2.dialed link .succeeded
    w.Sustains r (some link) w' ∧ ∀ address, w'.Serves r ⟨address, link, .clean⟩ := by
  have hnext := h.sustains_next hfair
  have hdialed := hnext.continues.partway.dialed link .succeeded
  refine ⟨(hnext.but _).trans (sustains_setLine hdialed), fun address ↦ ?_⟩
  exact ⟨.fresh link, if_pos rfl, rfl, rfl, by simp⟩

/-- A dial that is decided at once succeeds. -/
theorem Partway.dial_succeeds (h : w.Partway r) (hfair : (w.fates w.clock).Fair r.engine)
    {a : Attempt} (hd : network.dial link w = (some a, w')) :
    a = .succeeded ∧ w.Sustains r (some link) w' ∧
      ∀ address, w'.Serves r ⟨address, link, .clean⟩ := by
  simp only [network, Prod.mk.injEq] at hd
  obtain ⟨hsome, rfl⟩ := hd
  obtain rfl := hfair.dial a hsome
  rw [hsome]
  exact ⟨rfl, h.sustains_dialed hfair link⟩

theorem Partway.dial_pends (h : w.Partway r) (hfair : (w.fates w.clock).Fair r.engine)
    (hd : network.dial link w = (none, w')) : w.Sustains r none w' := by
  simp only [network, Prod.mk.injEq] at hd
  obtain ⟨hnone, rfl⟩ := hd
  rw [hnone]
  exact h.sustains_next hfair

/-- A dial that is waited for succeeds. -/
theorem Partway.await_succeeds (h : w.Partway r) (hfair : (w.fates w.clock).Fair r.engine)
    {a : Attempt} (hd : network.await link w = (a, w')) :
    a = .succeeded ∧ w.Sustains r (some link) w' ∧
      ∀ address, w'.Serves r ⟨address, link, .clean⟩ := by
  have hawait : w.next.1.await = .succeeded := hfair.await
  simp only [network, Prod.mk.injEq] at hd
  obtain ⟨rfl, rfl⟩ := hd
  rw [hawait]
  exact ⟨rfl, h.sustains_dialed hfair link⟩

/-- On a clean link that works all of a copy of the packet gets on its way. -/
theorem Partway.write_succeeds (h : w.Partway r) (hfair : (w.fates w.clock).Fair r.engine)
    (htidy : Tidy (⟨address, link, .clean⟩ :: held) q w) (ha : link.address ∈ r.followers)
    (hserves : w.Serves r ⟨address, link, .clean⟩) {result : Except IoFault Unit}
    (hwrite : network.write link (relayFrame r.packet) w = (result, w')) :
    result = .ok () ∧ w.Sustains r (some link) w' ∧
      w'.Serves r ⟨address, link, .asked r.packet⟩ := by
  have hnext := h.sustains_next hfair
  obtain ⟨line, hline, hlink, hserved, -⟩ := hnext.serves _ ha (by simp) hserves
  obtain ⟨line', hline', -, hclean⟩ :=
    (htidy.evolve (evolves_next w)).bears_head.exists_line (by simp)
  obtain rfl := Option.some.inj (hline.symm.trans hline')
  have hrefusal : w.next.1.refusal = none := hfair.refusal
  simp only [network, hline, hrefusal, Option.elim_none, Prod.mk.injEq] at hwrite
  obtain ⟨rfl, rfl⟩ := hwrite
  have hasked : (line.ask (relayFrame r.packet) none).outbound = relayFrame r.packet := by
    simp [Line.ask, hclean.outbound_eq]
  have hset : w.next.2.Continues r
      (w.next.2.setLine link.number (line.ask (relayFrame r.packet) none)) :=
    hnext.continues.partway.setLine fun _ ↦ ⟨.empty, by rw [hasked, ByteArray.append_empty]⟩
  exact ⟨rfl, (hnext.but _).trans (sustains_setLine hset), _, if_pos rfl, hlink, hserved,
    fun _ ↦ .inl ⟨hasked, hclean.inbound_eq⟩⟩

/-- A reader on a link that works and on which the packet was relayed is offered the whole reply, and the
follower has applied the packet. -/
theorem Partway.incoming_whole (h : w.Partway r) (hfair : (w.fates w.clock).Fair r.engine)
    (ha : link.address ∈ r.followers) (hserves : w.Serves r ⟨address, link, .asked r.packet⟩)
    {s : Source} (hi : network.incoming link w = (s, w')) :
    s.bytes = r.reply ∧ ∀ rest, w.Sustains r (some link) (network.leave link rest w') ∧
      (network.leave link rest w').Serves r ⟨address, link, .clean⟩ ∧
      ((network.leave link rest w').members link.address).store = r.after := by
  obtain ⟨turn, hturn, ht⟩ := hfair.turn
  have hnext := h.sustains_next hfair
  let w₁ := w.next.2.answer link.number turn
  have hanswer : w.Sustains r none w₁ :=
    hnext.trans (hnext.continues.partway.sustains_answer link.number ht)
  have hturned : w.next.1.turn.elim w.next.2 (w.next.2.answer link.number ·) = w₁ := by
    rw [show w.next.1.turn = some turn from hturn]
    rfl
  obtain ⟨line, hline, hlink, hserved, hanswered⟩ :=
    hnext.continues.partway.answer_served ht ha (hnext.serves _ ha (by simp) hserves)
  obtain ⟨hout, hin, hstore⟩ := hanswered rfl
  have hline : w₁.lines link.number = some line := hline
  have hlink : line.link = link := hlink
  have harrived : w.next.1.arrived = none := hfair.arrived
  rw [incoming_eq w (hturned ▸ hline), hturned] at hi
  obtain ⟨rfl, rfl⟩ := Prod.mk.inj hi
  refine ⟨?_, fun rest ↦ ?_⟩
  · simpa only [Source.bytes, w.next.1.join_cut, harrived, Line.arriving, Option.elim_none] using hin
  rw [hlink] at hstore
  rw [leave_setLine]
  have hset : w₁.Continues r (w₁.setLine link.number
      (Line.collect rest.size { line with offered := (line.arriving w.next.1.arrived).size })) :=
    hanswer.continues.partway.setLine fun _ ↦
      ⟨relayFrame r.packet, by
        change line.outbound ++ _ = _
        rw [hout, ByteArray.empty_append]⟩
  exact ⟨(hanswer.but _).trans (sustains_setLine hset),
    ⟨_, if_pos rfl, hlink, hserved, by simp⟩, hstore⟩

end World

end ReplicaChain.Cluster
