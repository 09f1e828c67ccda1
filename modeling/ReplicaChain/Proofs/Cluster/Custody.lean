import Mathlib.Data.List.Nodup
import ReplicaChain.Proofs.Cluster.Lines
import ReplicaChain.Proofs.Follower.LinkPool

/-!
# Links in custody

A link is idle in the pool or held for one exchange with a follower.  No two of them share a number,
so that whatever happens on the line of one leaves the lines of all others alone.  Idle links are
clean, and of every link that is held it is known how far its exchange has come.  Each operation of
the pool and each use of the network keeps this order.
-/

namespace ReplicaChain.Cluster

open Follower (Forwarder Link LinkPool relayFrame)
open Handling (Relayable)
open Wire (Packet)

variable {ω τ : Type}

/-! ## Custody -/

/-- A link that is kept under an address, and what is known of its line. -/
structure Held where
  address : String
  link : Link
  phase : Phase

/-- What is known of a link is so. -/
structure World.Bears (w : World ω τ) (h : Held) : Prop where
  address_eq : h.link.address = h.address
  exists_line : h.phase ≠ .unknown →
    ∃ line, w.lines h.link.number = some line ∧ line.link = h.link ∧ line.In h.phase

/-- The links of a node: those that are idle in its pool and those that are held. -/
def inventory (held : List Held) (p : LinkPool) : List Held :=
  p.idle.map (fun l ↦ ⟨l.1, l.2, .clean⟩) ++ held

/-- The links of a node are told apart, counted, and as they are known to be; and nothing but replies
was ever read off a line. -/
structure Tidy (held : List Held) (p : LinkPool) (w : World ω τ) : Prop where
  nodup : ((inventory held p).map (·.link.number)).Nodup
  numbered : ∀ h ∈ inventory held p, h.link.number < p.nextNumber
  total_eq : p.total = (inventory held p).length
  bears : ∀ h ∈ inventory held p, w.Bears h
  orderly : ∀ number line, w.lines number = some line → Orderly line.history

variable {held held' : List Held} {p q : LinkPool} {w w' : World ω τ} {x : Held} {link : Link}
  {address : String}

theorem inventory_cons (x : Held) (held : List Held) (p : LinkPool) :
    (inventory (x :: held) p).Perm (x :: inventory held p) :=
  List.perm_middle

/-- Some links may be forgotten, and all others may change hands. -/
theorem Tidy.handOver (h : Tidy held p w) (dropped : List Held)
    (hperm : (inventory held p).Perm (inventory held' q ++ dropped))
    (hnumber : q.nextNumber = p.nextNumber) (htotal : q.total = p.total - dropped.length) :
    Tidy held' q w where
  nodup := by
    have hnodup := (hperm.map (·.link.number)).nodup_iff.mp h.nodup
    rw [List.map_append] at hnodup
    exact hnodup.of_append_left
  numbered := by
    intro x hx
    rw [hnumber]
    exact h.numbered x (hperm.mem_iff.mpr (List.mem_append_left _ hx))
  total_eq := by
    have hlength := hperm.length_eq
    rw [List.length_append] at hlength
    calc
      q.total = (inventory held p).length - dropped.length := by rw [htotal, h.total_eq]
      _ = (inventory held' q).length := by rw [hlength, Nat.add_sub_cancel]
  bears := fun x hx ↦ h.bears x (hperm.mem_iff.mpr (List.mem_append_left _ hx))
  orderly := h.orderly

/-- Nothing is lost by what followers do by themselves. -/
theorem Tidy.evolve (h : Tidy held p w) (hw : w.Evolves w') : Tidy held p w' where
  nodup := h.nodup
  numbered := h.numbered
  total_eq := h.total_eq
  bears := by
    intro x hx
    have hbears := h.bears x hx
    refine ⟨hbears.address_eq, fun hphase ↦ ?_⟩
    obtain ⟨line, hline, hlink, hin⟩ := hbears.exists_line hphase
    have hevolves := hw x.link.number
    rw [hline] at hevolves
    generalize w'.lines x.link.number = l at hevolves
    cases hevolves with
    | some he => exact ⟨_, rfl, he.link_eq.trans hlink, he.keeps x.phase hin⟩
  orderly := by
    intro number line' hline'
    have hevolves := hw number
    rw [hline'] at hevolves
    generalize hl : w.lines number = l at hevolves
    cases hevolves with
    | some he => exact he.orderly (h.orderly number _ hl)

/-- A link that is held has a number of its own. -/
theorem Tidy.number_ne_head (h : Tidy (x :: held) p w) {y : Held} (hy : y ∈ inventory held p) :
    y.link.number ≠ x.link.number := by
  have hnodup := ((inventory_cons x held p).map (·.link.number)).nodup_iff.mp h.nodup
  exact fun hsame ↦ (List.nodup_cons.mp hnodup).1 (List.mem_map.mpr ⟨y, hy, hsame⟩)

/-- What happens on the line of a link that is held concerns no other link. -/
theorem Tidy.change (h : Tidy (x :: held) p w) {phase : Phase}
    (hlines : ∀ number, number ≠ x.link.number → w'.lines number = w.lines number)
    (horderly : ∀ line, w'.lines x.link.number = some line → Orderly line.history)
    (hbears : w'.Bears { x with phase }) : Tidy ({ x with phase } :: held) p w' := by
  have hold := inventory_cons x held p
  have hnew := inventory_cons { x with phase } held p
  have hnodup := (hold.map (·.link.number)).nodup_iff.mp h.nodup
  have hmem {y : Held} (hy : y ∈ inventory held p) : y ∈ inventory (x :: held) p :=
    hold.mem_iff.mpr (List.mem_cons_of_mem x hy)
  refine ⟨(hnew.map (·.link.number)).nodup_iff.mpr hnodup, ?_, ?_, ?_, ?_⟩
  · intro y hy
    rcases List.mem_cons.mp (hnew.mem_iff.mp hy) with rfl | hy
    · exact h.numbered x (hold.mem_iff.mpr List.mem_cons_self)
    · exact h.numbered y (hmem hy)
  · rw [h.total_eq, hold.length_eq, hnew.length_eq]
    rfl
  · intro y hy
    rcases List.mem_cons.mp (hnew.mem_iff.mp hy) with rfl | hy
    · exact hbears
    · have hy' := h.bears y (hmem hy)
      refine ⟨hy'.address_eq, ?_⟩
      rw [hlines _ (h.number_ne_head hy)]
      exact hy'.exists_line
  · intro number line hline
    by_cases hnumber : number = x.link.number
    · subst hnumber
      exact horderly line hline
    · rw [hlines number hnumber] at hline
      exact h.orderly number line hline

theorem Tidy.bears_head (h : Tidy (x :: held) p w) : w.Bears x :=
  h.bears x ((inventory_cons x held p).mem_iff.mpr List.mem_cons_self)

theorem Tidy.perm (h : Tidy held p w) (hperm : held.Perm held') : Tidy held' p w := by
  refine h.handOver [] ?_ rfl rfl
  rw [List.append_nil]
  exact hperm.append_left _

/-- Nothing need be known of a link. -/
theorem Tidy.forgetPhase (h : Tidy (x :: held) p w) :
    Tidy ({ x with phase := .unknown } :: held) p w :=
  h.change (fun _ _ ↦ rfl) (h.orderly x.link.number)
    ⟨h.bears_head.address_eq, fun hphase ↦ absurd rfl hphase⟩

/-- Nothing need be known of some of the links that are held. -/
theorem Tidy.forgetPhases_append {others : List Held} (h : Tidy (held ++ others) p w) :
    Tidy (held.map (fun x ↦ { x with phase := .unknown }) ++ others) p w := by
  induction held generalizing others with
  | nil => exact h
  | cons x held ih =>
    have hforgotten : Tidy ({ x with phase := .unknown } :: (held ++ others)) p w :=
      Tidy.forgetPhase h
    exact (ih (hforgotten.perm List.perm_middle.symm)).perm List.perm_middle

/-- Nothing need be known of any link that is held. -/
theorem Tidy.forgetPhases (h : Tidy held p w) :
    Tidy (held.map fun x ↦ { x with phase := .unknown }) p w := by
  rw [← List.append_nil held] at h
  simpa using h.forgetPhases_append

/-! ## The pool -/

/-- An idle link that is lent is clean. -/
theorem Tidy.request_idle (h : Tidy held p w) (hr : p.request address = (.idle link, q)) :
    Tidy (⟨address, link, .clean⟩ :: held) q w := by
  obtain ⟨newer, older, hidle, -, rfl⟩ := LinkPool.takeIdle_eq_some (LinkPool.request_idle hr)
  refine h.handOver [] ?_ rfl rfl
  simp only [inventory, hidle, List.map_append, List.map_cons, List.append_nil, List.append_assoc,
    List.cons_append]
  exact List.perm_middle.symm.append_left _

/-- A link that is to be dialed is like no other. -/
theorem Tidy.request_toDial (h : Tidy held p w) (hr : p.request address = (.toDial link, q)) :
    Tidy (⟨address, link, .unknown⟩ :: held) q w := by
  obtain ⟨rfl, -, -, rfl⟩ := LinkPool.request_toDial hr
  let x : Held := ⟨address, ⟨p.nextNumber, address⟩, .unknown⟩
  let q : LinkPool := { p with total := p.total + 1, nextNumber := p.nextNumber + 1 }
  have hperm : (inventory (x :: held) q).Perm (x :: inventory held p) := inventory_cons x held q
  refine ⟨(hperm.map (·.link.number)).nodup_iff.mpr (List.nodup_cons.mpr ⟨?_, h.nodup⟩), ?_, ?_, ?_,
    h.orderly⟩
  · intro hmem
    obtain ⟨y, hy, hnumber⟩ := List.mem_map.mp hmem
    exact Nat.ne_of_lt (h.numbered y hy) hnumber
  · intro y hy
    rcases List.mem_cons.mp (hperm.mem_iff.mp hy) with rfl | hy
    · exact Nat.lt_succ_self _
    · exact Nat.lt_succ_of_lt (h.numbered y hy)
  · rw [hperm.length_eq, List.length_cons, ← h.total_eq]
  · intro y hy
    rcases List.mem_cons.mp (hperm.mem_iff.mp hy) with rfl | hy
    · exact ⟨rfl, fun hphase ↦ absurd rfl hphase⟩
    · exact h.bears y hy

theorem Tidy.request_refused {fault : Fault} (h : Tidy held p w)
    (hr : p.request address = (.refused fault, q)) : Tidy held q w := by
  obtain ⟨hidle, htotal, hnumber, -⟩ := LinkPool.request_refused hr
  refine h.handOver [] ?_ hnumber htotal
  rw [inventory, inventory, hidle, List.append_nil]

theorem Tidy.opened (h : Tidy held p w) : Tidy held p.opened w :=
  h.handOver [] (by rw [List.append_nil]; rfl) rfl rfl

/-- A link that is not counted any more is held no more. -/
theorem Tidy.uncount (h : Tidy (x :: held) p w) (hidle : q.idle = p.idle)
    (htotal : q.total = p.total - 1) (hnumber : q.nextNumber = p.nextNumber) : Tidy held q w := by
  refine h.handOver [x] ?_ hnumber htotal
  rw [show inventory held q = inventory held p by rw [inventory, inventory, hidle]]
  exact (inventory_cons x held p).trans (List.perm_append_singleton x _).symm

/-- A clean link that is handed back and kept is idle. -/
theorem Tidy.park (h : Tidy (⟨address, link, .clean⟩ :: held) p w) :
    Tidy held { p with idle := (address, link) :: p.idle } w := by
  refine h.handOver [] ?_ rfl rfl
  rw [List.append_nil]
  exact inventory_cons _ held p

/-! ## The network -/

section Network

variable {a : Attempt} {frame : ByteArray} {fault : IoFault}

/-- A link that was dialed is clean. -/
theorem Tidy.dialed (h : Tidy (x :: held) p w) :
    Tidy ({ x with phase := .clean } :: held) p (w.dialed x.link .succeeded) := by
  have hself : (w.dialed x.link .succeeded).lines x.link.number = some (.fresh x.link) := if_pos rfl
  refine h.change (fun number hne ↦ if_neg hne) ?_ ⟨h.bears_head.address_eq, fun _ ↦ ?_⟩
  · intro line hline
    obtain rfl := Option.some.inj (hself.symm.trans hline)
    exact orderly_nil
  · exact ⟨_, hself, rfl, Line.clean_fresh x.link⟩

theorem Tidy.dial_none (h : Tidy held p w) (hd : network.dial link w = (none, w')) :
    Tidy held p w' := by
  simp only [network, Prod.mk.injEq] at hd
  obtain ⟨hnone, rfl⟩ := hd
  rw [hnone]
  exact h.evolve (World.evolves_next w)

theorem Tidy.dial_succeeded (h : Tidy (x :: held) p w)
    (hd : network.dial x.link w = (some .succeeded, w')) :
    Tidy ({ x with phase := .clean } :: held) p w' := by
  simp only [network, Prod.mk.injEq] at hd
  obtain ⟨hsome, rfl⟩ := hd
  rw [hsome]
  exact (h.evolve (World.evolves_next w)).dialed

/-- A link that could not be dialed has no line. -/
theorem Tidy.dial_failed (h : Tidy held p w) (ha : a ≠ .succeeded)
    (hd : network.dial link w = (some a, w')) : Tidy held p w' := by
  simp only [network, Prod.mk.injEq] at hd
  obtain ⟨hsome, rfl⟩ := hd
  simp only [hsome, Option.elim_some, World.dialed, if_neg ha]
  exact h.evolve (World.evolves_next w)

theorem Tidy.await_succeeded (h : Tidy (x :: held) p w)
    (hd : network.await x.link w = (.succeeded, w')) :
    Tidy ({ x with phase := .clean } :: held) p w' := by
  simp only [network, Prod.mk.injEq] at hd
  obtain ⟨ha, rfl⟩ := hd
  rw [ha]
  exact (h.evolve (World.evolves_next w)).dialed

theorem Tidy.await_failed (h : Tidy held p w) (ha : a ≠ .succeeded)
    (hd : network.await link w = (a, w')) : Tidy held p w' := by
  simp only [network, Prod.mk.injEq] at hd
  obtain ⟨hawaited, rfl⟩ := hd
  simp only [hawaited, World.dialed, if_neg ha]
  exact h.evolve (World.evolves_next w)

/-- A link whose line is known may get another line. -/
theorem Tidy.setLine {line line' : Line} {phase phase' : Phase}
    (h : Tidy (⟨address, link, phase⟩ :: held) p w) (hphase : phase ≠ .unknown)
    (hline : w.lines link.number = some line) (hlink : line'.link = line.link)
    (horderly : Orderly line.history → Orderly line'.history)
    (hin : line.In phase → line'.In phase') :
    Tidy (⟨address, link, phase'⟩ :: held) p (w.setLine link.number line') := by
  have hself : (w.setLine link.number line').lines link.number = some line' := if_pos rfl
  obtain ⟨line₀, hline₀, hlink₀, hin₀⟩ := h.bears_head.exists_line hphase
  obtain rfl := Option.some.inj (hline.symm.trans hline₀)
  refine h.change (fun number hne ↦ if_neg hne) ?_
    ⟨h.bears_head.address_eq, fun _ ↦ ⟨line', hself, hlink.trans hlink₀, hin hin₀⟩⟩
  intro line₁ hline₁
  obtain rfl := Option.some.inj (hself.symm.trans hline₁)
  exact horderly (h.orderly _ line hline)

/-- After a packet was relayed on a clean link, its reply is awaited there. -/
theorem Tidy.write_ok (h : Tidy (⟨address, link, .clean⟩ :: held) p w) {r : Packet}
    (hr : Relayable r) (hw : network.write link (relayFrame r) w = (.ok (), w')) :
    Tidy (⟨address, link, .asked r⟩ :: held) p w' := by
  have hnext := h.evolve (World.evolves_next w)
  simp only [network] at hw
  split at hw
  · simp at hw
  · rename_i line hline
    simp only [Prod.mk.injEq] at hw
    obtain ⟨hok, rfl⟩ := hw
    have hrefusal : w.next.1.refusal = none := by
      cases hc : w.next.1.refusal with
      | none => rfl
      | some refusal => simp [hc] at hok
    rw [hrefusal]
    exact hnext.setLine (by simp) hline rfl (Line.orderly_ask · _ none) fun hclean ↦
      Line.Clean.asked hclean hr

/-- After a write that failed nothing is known. -/
theorem Tidy.write_error (h : Tidy (⟨address, link, .clean⟩ :: held) p w)
    (hw : network.write link frame w = (.error fault, w')) :
    Tidy (⟨address, link, .unknown⟩ :: held) p w' := by
  have hnext := h.evolve (World.evolves_next w)
  simp only [network] at hw
  split at hw
  · obtain ⟨-, rfl⟩ := Prod.mk.inj hw
    exact hnext.forgetPhase
  · rename_i line hline
    obtain ⟨-, rfl⟩ := Prod.mk.inj hw
    have hlink : (line.ask frame w.next.1.refusal).link = line.link := by
      cases w.next.1.refusal <;> rfl
    exact hnext.setLine (by simp) hline hlink (Line.orderly_ask · _ _) fun _ ↦ trivial

theorem Tidy.close (h : Tidy (x :: held) p w) :
    Tidy ({ x with phase := .unknown } :: held) p (network.close x.link w) := by
  simp only [network]
  split
  · exact h.forgetPhase
  · rename_i line hline
    refine h.change (fun number hne ↦ if_neg hne) ?_ ⟨h.bears_head.address_eq, by simp⟩
    intro line' hline'
    obtain rfl : { line with closed := true } = line' := by simpa [World.setLine] using hline'
    exact h.orderly _ line hline

theorem World.setLine_setLine (number : Nat) (line line' : Line) (w : World ω τ) :
    (w.setLine number line).setLine number line' = w.setLine number line' := by
  simp only [World.setLine, World.mk.injEq, true_and, and_true]
  funext i
  split <;> rfl

theorem leave_setLine (link : Link) (rest : Source) (line : Line) (w : World ω τ) :
    network.leave link rest (w.setLine link.number line) =
      w.setLine link.number (line.collect rest.size) := by
  simp only [network, World.setLine, if_true]
  exact World.setLine_setLine link.number _ _ w

theorem incoming_eq {line : Line} (w : World ω τ)
    (hline : (w.next.1.turn.elim w.next.2 (w.next.2.answer link.number ·)).lines link.number =
      some line) :
    network.incoming link w =
      (⟨w.next.1.cut (line.arriving w.next.1.arrived), w.next.1.ending⟩,
        (w.next.1.turn.elim w.next.2 (w.next.2.answer link.number ·)).setLine link.number
          { line with offered := (line.arriving w.next.1.arrived).size }) := by
  simp only [network, hline]

/-- While a node waits for bytes, its followers do something by themselves.  Then it is offered some
of the bytes on the line, and takes what it reads off the line. -/
theorem exists_incoming {line : Line} (hline : w.lines link.number = some line) {s : Source}
    (hi : network.incoming link w = (s, w')) :
    ∃ w₁ line₁ arrived, w.Evolves w₁ ∧ w₁.lines link.number = some line₁ ∧
      s.bytes = line₁.arriving arrived ∧ ∀ rest, network.leave link rest w' =
        w₁.setLine link.number ({ line₁ with offered := s.bytes.size }.collect rest.size) := by
  let w₁ : World ω τ := w.next.1.turn.elim w.next.2 (w.next.2.answer link.number ·)
  have hevolves : w.Evolves w₁ := by
    have hnext := World.evolves_next w
    simp only [w₁]
    cases w.next.1.turn with
    | none => exact hnext
    | some turn => exact hnext.trans (World.evolves_answer link.number turn _)
  obtain ⟨line₁, hline₁⟩ : ∃ line₁, w₁.lines link.number = some line₁ := by
    have := hevolves link.number
    rw [hline] at this
    generalize w₁.lines link.number = l at this
    cases this
    exact ⟨_, rfl⟩
  rw [incoming_eq w hline₁] at hi
  obtain ⟨rfl, rfl⟩ := Prod.mk.inj hi
  have hbytes : (⟨w.next.1.cut (line₁.arriving w.next.1.arrived), w.next.1.ending⟩ : Source).bytes =
      line₁.arriving w.next.1.arrived := w.next.1.join_cut _
  refine ⟨w₁, line₁, w.next.1.arrived, hevolves, hline₁, hbytes, fun rest ↦ ?_⟩
  rw [hbytes]
  exact leave_setLine link rest _ w₁

variable {r reply : Packet} {s rest : Source} {pool pool' : BufferPool}

/-- A packet that is read from a link on which a packet was relayed answers it and leaves the link
clean. -/
theorem Tidy.receive_ok (h : Tidy (⟨address, link, .asked r⟩ :: held) p w)
    (hi : network.incoming link w = (s, w'))
    (hd : Packet.decode pool s = (.ok reply, pool', rest)) :
    Tidy (⟨address, link, .clean⟩ :: held) p (network.leave link rest w') ∧
      reply.header.requestId = r.header.requestId := by
  obtain ⟨line, hline, -, -⟩ := h.bears_head.exists_line (by simp)
  obtain ⟨w₁, line₁, arrived, hevolves, hline₁, hbytes, hleave⟩ := exists_incoming hline hi
  have h₁ := h.evolve hevolves
  obtain ⟨line₂, hline₂, -, hasked⟩ := h₁.bears_head.exists_line (by simp)
  obtain rfl := Option.some.inj (hline₁.symm.trans hline₂)
  obtain ⟨hclean, hid, horderly⟩ := Line.Asked.collect hasked hbytes hd
  rw [hleave, hbytes]
  exact ⟨h₁.setLine (by simp) hline₁ rfl horderly fun _ ↦ hclean, hid⟩

/-- After a read that failed nothing is known. -/
theorem Tidy.receive_error {fault : Fault} (h : Tidy (⟨address, link, .asked r⟩ :: held) p w)
    (hi : network.incoming link w = (s, w'))
    (hd : Packet.decode pool s = (.error fault, pool', rest)) :
    Tidy (⟨address, link, .unknown⟩ :: held) p (network.leave link rest w') := by
  obtain ⟨line, hline, -, -⟩ := h.bears_head.exists_line (by simp)
  obtain ⟨w₁, line₁, arrived, hevolves, hline₁, hbytes, hleave⟩ := exists_incoming hline hi
  have h₁ := h.evolve hevolves
  rw [hleave, hbytes]
  exact h₁.setLine (by simp) hline₁ rfl (Line.orderly_collect · hbytes hd) fun _ ↦ trivial

end Network

/-! ## Settling -/

variable {f : Forwarder (World ω τ)}

theorem Tidy.destroy (h : Tidy (x :: held) f.links f.network) :
    Tidy held (f.destroy network x.link).links (f.destroy network x.link).network :=
  h.close.uncount rfl rfl rfl

/-- A clean link is handed back, and either kept or closed. -/
theorem Tidy.release (h : Tidy (⟨address, link, .clean⟩ :: held) f.links f.network) :
    let g := f.release network address link true
    Tidy held g.links g.network := by
  dsimp only [Forwarder.release]
  rcases f.links.release_cases address link true with hr | hr
  · rw [hr]
    exact h.park
  · rw [hr]
    exact h.close.uncount rfl rfl rfl

def heldInSlot (phase : Phase) : String × Option Link → Option Held
  | (_, none) => none
  | (address, some link) => some ⟨address, link, phase⟩

theorem exists_slot_of_mem {phase : Phase} {slots : List (String × Option Link)} {x : Held}
    (hx : x ∈ slots.filterMap (heldInSlot phase)) :
    x.phase = phase ∧ (x.address, some x.link) ∈ slots := by
  obtain ⟨⟨address, _ | link⟩, hslot, hheld⟩ := List.mem_filterMap.mp hx
  · cases hheld
  · obtain rfl := Option.some.inj hheld
    exact ⟨rfl, hslot⟩

/-- Whatever is known of the links in slots may be forgotten. -/
theorem Tidy.forgetSlots {phase : Phase} {slots : List (String × Option Link)}
    (h : Tidy (slots.filterMap (heldInSlot phase)) p w) :
    Tidy (slots.filterMap (heldInSlot .unknown)) p w := by
  have hforgotten := h.forgetPhases
  have heq : (slots.filterMap (heldInSlot phase)).map (fun x ↦ { x with phase := .unknown }) =
      slots.filterMap (heldInSlot .unknown) := by
    rw [List.map_filterMap]
    congr
    funext slot
    obtain ⟨address, _ | link⟩ := slot <;> rfl
  rwa [heq] at hforgotten

/-- Settling all links of a packet leaves all other links in order. -/
theorem Tidy.settle_append {ok : Bool} {phase : Phase} (hok : ok = true → phase = .clean)
    {slots : List (String × Option Link)} {others : List Held}
    (h : Tidy (slots.filterMap (heldInSlot phase) ++ others) f.links f.network) :
    let g := slots.foldl (Handling.settle network ok) f
    Tidy others g.links g.network := by
  induction slots generalizing f with
  | nil => exact h
  | cons slot slots ih =>
    obtain ⟨address, _ | link⟩ := slot
    · exact ih h
    · cases ok with
      | false => exact ih (Tidy.destroy h)
      | true =>
        rw [hok rfl] at h ih
        exact ih (Tidy.release h)

/-- Settling all links of a packet leaves the idle links in order. -/
theorem Tidy.settle {ok : Bool} {phase : Phase} (hok : ok = true → phase = .clean)
    {slots : List (String × Option Link)}
    (h : Tidy (slots.filterMap (heldInSlot phase)) f.links f.network) :
    let g := slots.foldl (Handling.settle network ok) f
    Tidy [] g.links g.network :=
  Tidy.settle_append hok (by rwa [List.append_nil])

end ReplicaChain.Cluster
