import Mathlib.Logic.Function.Basic
import ReplicaChain.Proofs.Cluster.Group
import ReplicaChain.Proofs.Cluster.Marks

/-!
# Packets under way

A node that relays several packets keeps their links apart.  On an open line nothing is on its way to a
follower but a packet that is being relayed there; a line that the node has closed may still hold a
packet that was answered with a failure.  Each move of a group keeps this order, with marks that say how
far every packet has come with every follower.
-/

namespace ReplicaChain.Cluster

open Follower (Forwarder Link ReceiveStage Receiving SendStage Sending relayFrame stepAt)
open Handling (Act Relayable Stage applied)
open Wire (Packet)

variable {ω τ : Type} {engine : Extent.Engine ω} {addresses : List String}

/-! ## Tasks -/

def Task.held (t : Task) : List Held :=
  match t.stage with
  | .relaying relays => relays.filterMap (heldBySending t.packet)
  | .collecting replies => replies.filterMap (heldByReceiving t.packet)
  | .leaving ok =>
    (t.request.followers.zip t.request.slots).filterMap
      (heldInSlot (if ok then .clean else .unknown))

/-- While a packet is relayed, every relay is where the mark of its follower says. -/
structure Task.Telling (mark : String → Mark) (relays : List (String × SendStage)) (t : Task) :
    Prop where
  packet_eq : t.request.packet = t.packet
  followers_eq : t.request.followers = relays.map Prod.fst
  marked : ∀ address stage, (address, stage) ∈ relays → Marked (mark address) stage

/-- While replies are collected, every reply is where the mark of its follower says. -/
structure Task.Hearing (mark : String → Mark) (replies : List (String × ReceiveStage)) (t : Task) :
    Prop where
  requestId_eq : t.request.packet.header.requestId = t.packet.header.requestId
  result_eq : t.request.packet.header.result = .ok
  followers_eq : t.request.followers = replies.map Prod.fst
  answered : ∀ address stage, (address, stage) ∈ replies → Answered (mark address) stage

/-- A packet is answered with success only if all followers have accepted it. -/
structure Task.Ending (mark : String → Mark) (ok : Bool) (t : Task) : Prop where
  ok_of_result : t.request.packet.header.result = .ok → ok = true
  heard : ok = true → ∀ address ∈ t.request.followers, mark address = .heard true

/-- What the marks of followers say about how far a packet has come at the node. -/
def Task.Agrees (mark : String → Mark) (t : Task) : Prop :=
  match t.stage with
  | .relaying relays => t.Telling mark relays
  | .collecting replies => t.Hearing mark replies
  | .leaving ok => t.Ending mark ok

/-- A packet is relayed to the followers, and they have come as far with it as the marks say. -/
structure Task.Tracked (addresses : List String) (mark : String → Mark) (w : World ω τ)
    (t : Task) : Prop where
  relayable : Relayable t.packet
  perm : t.request.followers.Perm addresses
  agrees : t.Agrees mark
  carried : ∀ x ∈ t.held, x.phase = .asked t.packet →
    ∃ line, w.lines x.link.number = some line ∧ line.Carries t.packet (mark x.address)

namespace Task

variable {mark : String → Mark} {w : World ω τ} {relays : List (String × SendStage)}
  {replies : List (String × ReceiveStage)} {ok : Bool}

theorem held_of_relaying (t : Task) (hstage : t.stage = .relaying relays) :
    t.held = relays.filterMap (heldBySending t.packet) := by
  simp only [held, hstage]

theorem held_of_collecting (t : Task) (hstage : t.stage = .collecting replies) :
    t.held = replies.filterMap (heldByReceiving t.packet) := by
  simp only [held, hstage]

theorem held_of_leaving (t : Task) (hstage : t.stage = .leaving ok) :
    t.held = (t.request.followers.zip t.request.slots).filterMap
      (heldInSlot (if ok then .clean else .unknown)) := by
  simp only [held, hstage]

variable {t : Task} (h : t.Tracked addresses mark w)
include h

theorem Tracked.telling (hstage : t.stage = .relaying relays) : t.Telling mark relays := by
  simpa only [Agrees, hstage] using h.agrees

theorem Tracked.hearing (hstage : t.stage = .collecting replies) : t.Hearing mark replies := by
  simpa only [Agrees, hstage] using h.agrees

theorem Tracked.ending (hstage : t.stage = .leaving ok) : t.Ending mark ok := by
  simpa only [Agrees, hstage] using h.agrees

/-- What happens on lines that are not held for a packet is nothing to it. -/
theorem Tracked.of_lines_eq {w' : World ω τ}
    (hlines : ∀ x ∈ t.held, w'.lines x.link.number = w.lines x.link.number) :
    t.Tracked addresses mark w' := by
  obtain ⟨hrelayable, hperm, hagrees, hcarried⟩ := h
  refine ⟨hrelayable, hperm, hagrees, fun x hx hasked ↦ ?_⟩
  rw [hlines x hx]
  exact hcarried x hx hasked

end Task

/-! ## Groups -/

namespace Group

def held (g : Group ω τ) : List Held :=
  g.clients.flatMap (·.elim [] Task.held)

/-- The links of a group are in order, and all that is on its way is accounted for. -/
structure Tracked (addresses : List String) (marks : Nat → String → Mark) (g : Group ω τ) :
    Prop where
  tidy : Tidy g.held g.primary.forwarder.links g.world
  still : g.world.Still
  tasks : ∀ client (t : Task), g.clients[client]? = some (some t) →
    t.Tracked addresses (marks client) g.world
  /-- What is on its way to a follower on an open line is a packet that it was told of there. -/
  unread : ∀ number line, g.world.lines number = some line → line.closed = false →
    line.outbound ≠ .empty → ∃ client t, g.clients[client]? = some (some t) ∧
      ∃ x ∈ t.held, x.link.number = number ∧ line.link = x.link ∧
        marks client x.address = .told ∧ line.outbound = relayFrame t.packet
  /-- Something is left unread on a closed line only if a packet has failed. -/
  late : ∀ number line, g.world.lines number = some line → line.closed = true →
    line.outbound ≠ .empty → ∃ a ∈ g.answers, a.2.header.result ≠ .ok

end Group

section Held

variable {g : Group ω τ} {client : Nat} {t t' : Task} {marks : Nat → String → Mark}

/-- The links of one packet are told apart from those of all others. -/
theorem exists_held_perm (ht : g.clients[client]? = some (some t)) :
    ∃ others, g.held.Perm (t.held ++ others) ∧
      (∀ o, ((g.clients.set client o).flatMap (·.elim [] Task.held)).Perm
        (o.elim [] Task.held ++ others)) ∧
      ∀ i t', i ≠ client → g.clients[i]? = some (some t') → t'.held ⊆ others := by
  obtain ⟨others, hold, hnew, hothers⟩ :=
    Follower.exists_flatMap_perm (fun o : Option Task ↦ o.elim [] Task.held) ht
  exact ⟨others, hold, hnew, fun i t' hi ht' ↦ hothers i (some t') hi ht'⟩

/-- No two links that are held in order have one number. -/
theorem Tidy.number_ne {held others : List Held} {q : Follower.LinkPool} {w : World ω τ}
    (h : Tidy (held ++ others) q w) {x y : Held} (hx : x ∈ held) (hy : y ∈ others) :
    x.link.number ≠ y.link.number := by
  have hnodup := h.nodup
  rw [inventory, List.map_append, List.map_append] at hnodup
  have hdisjoint := List.disjoint_of_nodup_append hnodup.of_append_right
  exact fun hsame ↦ hdisjoint (List.mem_map_of_mem hx) (hsame ▸ List.mem_map_of_mem hy)

/-- On a line of a clean link nothing is on its way. -/
theorem Tidy.outbound_eq_of_clean {held : List Held} {q : Follower.LinkPool} {w : World ω τ}
    (h : Tidy held q w) {x : Held} (hx : x ∈ held) (hclean : x.phase = .clean) {line : Line}
    (hline : w.lines x.link.number = some line) : line.outbound = .empty := by
  have hbears := h.bears x (List.mem_append_right _ hx)
  obtain ⟨line', hline', -, hin⟩ := hbears.exists_line (by simp [hclean])
  obtain rfl := Option.some.inj (hline'.symm.trans hline)
  rw [hclean] at hin
  exact hin.outbound_eq

/-- The state of a client after the state of one was changed. -/
theorem getElem?_set_cases {l : List (Option Task)} {i j : Nat} {o : Option Task} {u : Task}
    (h : (l.set i o)[j]? = some (some u)) : j = i ∧ o = some u ∨ j ≠ i ∧ l[j]? = some (some u) := by
  by_cases hj : j = i
  · subst hj
    rw [List.getElem?_set_self'] at h
    obtain ⟨_, -, hu⟩ := Option.map_eq_some_iff.mp h
    exact .inl ⟨rfl, hu⟩
  · rw [List.getElem?_set_ne (Ne.symm hj)] at h
    exact .inr ⟨hj, h⟩

/-- What happens on the lines of one packet is nothing to the packets of other clients. -/
theorem Group.Tracked.task_of_ne (h : g.Tracked addresses marks) {i : Nat} {u : Task}
    (hu : g.clients[i]? = some (some u)) {mine others : List Held} {q : Follower.LinkPool}
    {w w' : World ω τ} (htidy : Tidy (mine ++ others) q w') (hothers : u.held ⊆ others)
    (hlines : ∀ number, number ∉ mine.map (·.link.number) →
      w.lines number = g.world.lines number) : u.Tracked addresses (marks i) w := by
  refine (h.tasks i u hu).of_lines_eq fun x hx ↦ hlines _ fun hmem ↦ ?_
  obtain ⟨y, hy, hsame⟩ := List.mem_map.mp hmem
  exact htidy.number_ne hy (hothers hx) hsame

/-- A packet comes a step further, which concerns its own lines alone. -/
theorem Group.Tracked.put (h : g.Tracked addresses marks)
    (ht : g.clients[client]? = some (some t)) {n : Node ω (World ω τ)} {mark : String → Mark}
    (hpacket : t'.packet = t.packet)
    (htidy : ∀ others, Tidy (t.held ++ others) g.primary.forwarder.links g.world →
      Tidy (t'.held ++ others) n.forwarder.links n.forwarder.network)
    (hdiffers : g.world.Differs (t'.held.map (·.link.number)) n.forwarder.network)
    (htask : t'.Tracked addresses mark n.forwarder.network)
    (hfollows : ∀ x ∈ t'.held, ∀ line, n.forwarder.network.lines x.link.number = some line →
      line.Follows t.packet (mark x.address) x g.world)
    (hkeeps : ∀ x ∈ t.held, marks client x.address = .told →
      ∃ y ∈ t'.held, y.link = x.link ∧ y.address = x.address ∧ mark y.address = .told) :
    { g with primary := n, clients := g.clients.set client (some t') }.Tracked addresses
      (Function.update marks client mark) := by
  obtain ⟨others, hold, hnew, hothers⟩ := exists_held_perm ht
  have htidy' := htidy others (h.tidy.perm hold)
  have hlength := (List.getElem?_eq_some_iff.mp ht).1
  have hself : (g.clients.set client (some t'))[client]? = some (some t') :=
    List.getElem?_set_self hlength
  refine ⟨htidy'.perm (hnew (some t')).symm, hdiffers.still h.still, ?_, ?_, ?_⟩
  · intro i u hu
    rcases getElem?_set_cases hu with ⟨rfl, ⟨rfl⟩⟩ | ⟨hi, hu⟩
    · rw [Function.update_self]
      exact htask
    · rw [Function.update_of_ne hi]
      exact h.task_of_ne hu htidy' (hothers i u hi hu) hdiffers.lines_eq
  · intro number line hline hopen hnonempty
    -- What was on its way before is accounted for by the same packet.
    have hbefore (hsame : g.world.lines number = some line) : ∃ i u,
        (g.clients.set client (some t'))[i]? = some (some u) ∧ ∃ x ∈ u.held,
          x.link.number = number ∧ line.link = x.link ∧
            Function.update marks client mark i x.address = .told ∧
            line.outbound = relayFrame u.packet := by
      obtain ⟨i, u, hu, x, hx, hnumber, hlink, htold, hframe⟩ := h.unread number line hsame hopen hnonempty
      by_cases hi : i = client
      · subst hi
        obtain rfl : t = u := by simpa [ht] using hu
        obtain ⟨y, hy, hlink', -, htold'⟩ := hkeeps x hx htold
        refine ⟨i, t', hself, y, hy, by rw [hlink', hnumber], by rw [hlink', hlink], ?_, ?_⟩
        · rw [Function.update_self, htold']
        · rw [hframe, hpacket]
      · refine ⟨i, u, ?_, x, hx, hnumber, hlink, ?_, hframe⟩
        · rw [List.getElem?_set_ne (Ne.symm hi), hu]
        · rw [Function.update_of_ne hi, htold]
    by_cases hmem : number ∈ t'.held.map (·.link.number)
    · obtain ⟨x, hx, rfl⟩ := List.mem_map.mp hmem
      rcases hfollows x hx line hline with hsame | ⟨-, hempty | ⟨hlink, htold, hframe⟩⟩
      · exact hbefore hsame
      · exact absurd hempty hnonempty
      · refine ⟨client, t', hself, x, hx, rfl, hlink, ?_, ?_⟩
        · rw [Function.update_self, htold]
        · rw [hframe, hpacket]
    · exact hbefore ((hdiffers.lines_eq number hmem).symm.trans hline)
  · intro number line hline hclosed hnonempty
    by_cases hmem : number ∈ t'.held.map (·.link.number)
    · obtain ⟨x, hx, rfl⟩ := List.mem_map.mp hmem
      rcases hfollows x hx line hline with hsame | ⟨hopen, -⟩
      · exact h.late _ line hsame hclosed hnonempty
      · simp [hclosed] at hopen
    · exact h.late number line ((hdiffers.lines_eq number hmem).symm.trans hline) hclosed hnonempty

/-- A packet comes further at the node alone. -/
theorem Group.Tracked.restage (h : g.Tracked addresses marks)
    (ht : g.clients[client]? = some (some t)) {n : Node ω (World ω τ)}
    (hpacket : t'.packet = t.packet) (hlinks : n.forwarder.links = g.primary.forwarder.links)
    (hnetwork : n.forwarder.network = g.world)
    (hheld : t'.held = t.held ∨ t'.held = t.held.map fun x ↦ { x with phase := .unknown })
    (hperm : t'.request.followers.Perm addresses) (hagrees : t'.Agrees (marks client)) :
    { g with primary := n, clients := g.clients.set client (some t') }.Tracked addresses marks := by
  have htask := h.tasks client t ht
  rw [← Function.update_eq_self client marks]
  apply h.put ht hpacket
  · intro others htidy
    rw [hlinks, hnetwork]
    rcases hheld with hheld | hheld <;> rw [hheld]
    · exact htidy
    · exact htidy.forgetPhases_append
  · rw [hnetwork]
    exact .refl _ _
  · refine ⟨hpacket ▸ htask.relayable, hperm, hagrees, fun x hx hasked ↦ ?_⟩
    rw [hpacket] at hasked ⊢
    rw [hnetwork]
    rcases hheld with hheld | hheld <;> rw [hheld] at hx
    · exact htask.carried x hx hasked
    · obtain ⟨y, -, rfl⟩ := List.mem_map.mp hx
      cases hasked
  · rw [hnetwork]
    exact fun x _ line hline ↦ .inl hline
  · intro x hx htold
    rcases hheld with hheld | hheld <;> rw [hheld]
    · exact ⟨x, hx, rfl, rfl, htold⟩
    · exact ⟨_, List.mem_map_of_mem hx, rfl, rfl, htold⟩

section Exchange

variable {St : Type} {heldBy : String × St → Option Held} {l : List (String × St)} {i : Nat}
  {address : String} {stage stage' : St}

/-- The link of one exchange is in order among all others. -/
theorem Group.Tracked.exists_tidy (h : g.Tracked addresses marks)
    (ht : g.clients[client]? = some (some t)) (hheld : t.held = l.filterMap heldBy)
    (hi : l[i]? = some (address, stage)) :
    ∃ others, Tidy ((heldBy (address, stage)).toList ++ others) g.primary.forwarder.links
      g.world := by
  obtain ⟨others, hold, -⟩ := exists_held_perm ht
  obtain ⟨others', hold', -⟩ := Follower.exists_filterMap_perm heldBy hi
  refine ⟨others' ++ others, h.tidy.perm (hold.trans ?_)⟩
  rw [hheld, ← List.append_assoc]
  exact hold'.append_right others

/-- The line of one exchange carries what the mark of its follower says. -/
theorem Group.Tracked.carried (h : g.Tracked addresses marks)
    (haddress : ∀ r x, heldBy r = some x → x.address = r.1)
    (ht : g.clients[client]? = some (some t)) (hheld : t.held = l.filterMap heldBy)
    (hi : l[i]? = some (address, stage)) :
    Carried t.packet (marks client address) g.world (heldBy (address, stage)).toList := by
  intro x hx hasked
  have hx : heldBy (address, stage) = some x := Option.mem_toList.mp hx
  have hmem : x ∈ t.held := by
    rw [hheld]
    exact List.mem_filterMap.mpr ⟨_, List.mem_of_getElem? hi, hx⟩
  obtain ⟨line, hline, hcarries⟩ := (h.tasks client t ht).carried x hmem hasked
  rw [haddress _ x hx] at hcarries
  exact ⟨line, hline, hcarries⟩

/-- An exchange with one follower of a packet comes a step further. -/
theorem Group.Tracked.exchange (h : g.Tracked addresses marks)
    (haddress : ∀ r x, heldBy r = some x → x.address = r.1)
    (ht : g.clients[client]? = some (some t)) (hheld : t.held = l.filterMap heldBy)
    (hi : l[i]? = some (address, stage)) (hnodup : (l.map Prod.fst).Nodup)
    {n : Node ω (World ω τ)} {m : Mark} (hpacket : t'.packet = t.packet)
    (hheld' : t'.held = (l.set i (address, stage')).filterMap heldBy)
    (hperm : t'.request.followers.Perm addresses)
    (hagrees : t'.Agrees (Function.update (marks client) address m))
    (htidy : ∀ others,
      Tidy ((heldBy (address, stage)).toList ++ others) g.primary.forwarder.links g.world →
        Tidy ((heldBy (address, stage')).toList ++ others) n.forwarder.links n.forwarder.network)
    (hexchanged : Exchanged t.packet (marks client address) m (heldBy (address, stage)).toList
      (heldBy (address, stage')).toList g.world n.forwarder.network) :
    { g with primary := n, clients := g.clients.set client (some t') }.Tracked addresses
      (Function.update marks client (Function.update (marks client) address m)) := by
  have htask := h.tasks client t ht
  obtain ⟨others, hold, hnew, hothers⟩ := Follower.exists_filterMap_perm heldBy hi
  obtain ⟨rest, hrest, -⟩ := exists_held_perm ht
  have hnew' : t'.held.Perm ((heldBy (address, stage')).toList ++ others) := hheld' ▸ hnew _
  have hold' : t.held.Perm ((heldBy (address, stage)).toList ++ others) := hheld ▸ hold
  -- The links of the other exchanges go to other followers and are on other lines.
  have hne {x : Held} (hx : x ∈ others) : x.address ≠ address := by
    obtain ⟨r, hr, hrx⟩ := hothers x hx
    rw [haddress r x hrx]
    exact Follower.ne_of_mem_eraseIdx hnodup hi hr
  have hself {x : Held} (hx : x ∈ (heldBy (address, stage')).toList) : x.address = address :=
    haddress _ x (Option.mem_toList.mp hx)
  have hall (rest : List Held) (htidy' : Tidy (t.held ++ rest) g.primary.forwarder.links g.world) :
      Tidy ((heldBy (address, stage')).toList ++ (others ++ rest)) n.forwarder.links
        n.forwarder.network := by
    apply htidy
    rw [← List.append_assoc]
    exact htidy'.perm (hold'.append_right rest)
  have hline {x : Held} (hx : x ∈ others) :
      n.forwarder.network.lines x.link.number = g.world.lines x.link.number := by
    apply hexchanged.differs.lines_eq
    intro hmem
    obtain ⟨y, hy, hsame⟩ := List.mem_map.mp hmem
    have hx' : x ∈ others ++ rest := List.mem_append_left _ hx
    exact (hall rest (h.tidy.perm hrest)).number_ne hy hx' hsame
  apply h.put ht hpacket
  · intro rest htidy'
    refine (hall rest htidy').perm ?_
    rw [← List.append_assoc]
    exact (hnew'.append_right rest).symm
  · refine hexchanged.differs.mono ?_
    apply List.map_subset
    intro x hx
    exact hnew'.mem_iff.mpr (List.mem_append_left _ hx)
  · refine ⟨hpacket ▸ htask.relayable, hperm, hagrees, fun x hx hasked ↦ ?_⟩
    rw [hpacket] at hasked ⊢
    rcases List.mem_append.mp (hnew'.mem_iff.mp hx) with hx | hx
    · rw [hself hx, Function.update_self]
      exact hexchanged.carried x hx hasked
    · rw [hline hx, Function.update_of_ne (hne hx)]
      exact htask.carried x (hold'.mem_iff.mpr (List.mem_append_right _ hx)) hasked
  · intro x hx line hline'
    rcases List.mem_append.mp (hnew'.mem_iff.mp hx) with hx | hx
    · rw [hself hx, Function.update_self]
      exact hexchanged.follows x hx line hline'
    · exact .inl ((hline hx).symm.trans hline')
  · intro x hx htold
    rcases List.mem_append.mp (hold'.mem_iff.mp hx) with hx | hx
    · rw [haddress _ x (Option.mem_toList.mp hx)] at htold
      obtain ⟨htold', hkeeps⟩ := hexchanged.keeps htold
      obtain ⟨y, hy, hlink, hsame⟩ := hkeeps x hx
      refine ⟨y, hnew'.mem_iff.mpr (List.mem_append_left _ hy), hlink, hsame, ?_⟩
      rw [hself hy, Function.update_self, htold']
    · refine ⟨x, hnew'.mem_iff.mpr (List.mem_append_right _ hx), rfl, rfl, ?_⟩
      rw [Function.update_of_ne (hne hx), htold]

end Exchange

/-- An element of a list of which one was replaced is the new one or another. -/
theorem mem_set_cases {α : Type} {l : List α} {i : Nat} {a b c : α} (hi : l[i]? = some a)
    (hc : c ∈ l.set i b) : c = b ∨ c ∈ l.eraseIdx i :=
  List.mem_cons.mp ((List.set_perm_cons_eraseIdx (List.getElem?_eq_some_iff.mp hi).1 b).mem_iff.mp hc)

end Held

/-! ## Relaying and collecting -/

section Acts

variable {env : Environment ω (World ω τ)} {g : Group ω τ} {client i : Nat} {t : Task}
  {marks : Nat → String → Mark}

/-- One step of a relay that does not fail leaves all marks or tells one follower of the packet. -/
theorem Group.Tracked.relay (haddresses : addresses.Nodup) (henv : env.network = network)
    (h : g.Tracked addresses marks) (ht : g.clients[client]? = some (some t))
    {relays : List (String × SendStage)} (hstage : t.stage = .relaying relays) :
    let stepped := stepAt (Sending.advance env.network (relayFrame t.request.packet))
      (relays, g.primary.forwarder) i
    let g' := g.put client t (.relaying stepped.1, (g.handling t).setForwarder stepped.2)
    (∀ r ∈ stepped.1, ∀ link fault, r.2 ≠ .settled link (some fault)) →
    ∃ mark, g'.Tracked addresses (Function.update marks client mark) ∧
      g'.world.members = g.world.members ∧
      (mark = marks client ∨ ∃ address, marks client address = .untold ∧
        mark = Function.update (marks client) address .told) := by
  intro stepped g' hsound
  have htask := h.tasks client t ht
  obtain ⟨hpacket, hfollowers, hmarked⟩ := htask.telling hstage
  have hheld := t.held_of_relaying hstage
  have hnodup : (relays.map Prod.fst).Nodup :=
    hfollowers ▸ htask.perm.nodup_iff.mpr haddresses
  rcases hi : relays[i]? with _ | ⟨address, stage⟩
  · have hstepped : stepped = (relays, g.primary.forwarder) := by
      simp only [stepped, stepAt, hi]
    have hsame : g' = { g with clients := g.clients.set client (some t) } := by
      simp only [g', hstepped, Group.put, ← hstage]
      rfl
    refine ⟨marks client, ?_, by rw [hsame]; rfl, .inl rfl⟩
    rw [hsame, Follower.set_of_getElem?_eq ht, Function.update_eq_self]
    exact h
  · have hadvances := Sending.advances_advance network (relayFrame t.packet) address stage
      g.primary.forwarder
    have hstepped : stepped = (relays.set i (address,
        (Sending.advance network (relayFrame t.packet) address stage g.primary.forwarder).1),
        (Sending.advance network (relayFrame t.packet) address stage g.primary.forwarder).2) := by
      simp only [stepped, stepAt, hi, henv, hpacket]
    generalize Sending.advance network (relayFrame t.packet) address stage g.primary.forwarder =
      advanced at hadvances hstepped
    obtain ⟨stage', f'⟩ := advanced
    have hlength := (List.getElem?_eq_some_iff.mp hi).1
    have hnew : (address, stage') ∈ relays.set i (address, stage') := List.mem_set hlength _
    obtain ⟨others, htidy⟩ := h.exists_tidy ht hheld hi
    obtain ⟨m, hm, hcases, hexchanged⟩ := exchanged_sending h.still hadvances htidy
      (hmarked address stage (List.mem_of_getElem? hi))
      (h.carried (fun _ _ ↦ address_heldBySending) ht hheld hi)
      (fun link fault ↦ by rw [hstepped] at hsound; exact hsound _ hnew link fault)
    refine ⟨Function.update (marks client) address m, ?_, ?_, ?_⟩
    · have hfst : (relays.set i (address, stage')).map Prod.fst = relays.map Prod.fst :=
        Follower.map_set_of_getElem?_eq hi rfl
      simp only [g', hstepped]
      refine h.exchange (fun _ _ ↦ address_heldBySending) ht hheld hi hnodup rfl rfl htask.perm
        ⟨hpacket, hfollowers.trans hfst.symm, fun a s hs ↦ ?_⟩
        (fun _ htidy ↦ htidy.sending htask.relayable hadvances) hexchanged
      rcases mem_set_cases hi hs with hs | hs
      · obtain ⟨rfl, rfl⟩ := Prod.mk.inj hs
        rwa [Function.update_self]
      · rw [Function.update_of_ne (Follower.ne_of_mem_eraseIdx hnodup hi hs)]
        exact hmarked a s (List.mem_of_mem_eraseIdx hs)
    · simp only [g', hstepped]
      exact hexchanged.differs.members_eq
    · rcases hcases with rfl | ⟨huntold, rfl⟩
      · exact .inl (Function.update_eq_self address _)
      · exact .inr ⟨address, huntold, rfl⟩

/-- Collecting a reply that has arrived leaves all marks. -/
theorem Group.Tracked.collect (haddresses : addresses.Nodup) (henv : env.network = network)
    (h : g.Tracked addresses marks) (ht : g.clients[client]? = some (some t))
    {replies : List (String × ReceiveStage)} (hstage : t.stage = .collecting replies)
    (hready : g.isReady t.stage (.exchange i) = true) :
    let stepped := stepAt (Receiving.advance env.network t.request.packet.header.requestId)
      (replies, g.primary.forwarder) i
    let g' := g.put client t (.collecting stepped.1, (g.handling t).setForwarder stepped.2)
    g'.Tracked addresses marks ∧ g'.world.members = g.world.members := by
  intro stepped g'
  have htask := h.tasks client t ht
  obtain ⟨hid, hok, hfollowers, hanswered⟩ := htask.hearing hstage
  have hheld := t.held_of_collecting hstage
  have hnodup : (replies.map Prod.fst).Nodup :=
    hfollowers ▸ htask.perm.nodup_iff.mpr haddresses
  rcases hi : replies[i]? with _ | ⟨address, stage⟩
  · have hstepped : stepped = (replies, g.primary.forwarder) := by
      simp only [stepped, stepAt, hi]
    have hsame : g' = { g with clients := g.clients.set client (some t) } := by
      simp only [g', hstepped, Group.put, ← hstage]
      rfl
    refine ⟨?_, by rw [hsame]; rfl⟩
    rw [hsame, Follower.set_of_getElem?_eq ht]
    exact h
  · have hstepped : stepped = (replies.set i (address,
        (Receiving.advance network t.packet.header.requestId address stage g.primary.forwarder).1),
        (Receiving.advance network t.packet.header.requestId address stage
          g.primary.forwarder).2) := by
      simp only [stepped, stepAt, hi, henv, hid]
    obtain ⟨others, htidy⟩ := h.exists_tidy ht hheld hi
    have hinbound : ∀ link, stage = .pending (some link) → ∀ line,
        g.world.lines link.number = some line → line.inbound.size ≠ 0 := by
      rintro link rfl line hline
      simpa [Group.isReady, hstage, hi, hline] using hready
    obtain ⟨hm, hexchanged⟩ := exchanged_receiving htask.relayable h.still htidy
      (hanswered address stage (List.mem_of_getElem? hi))
      (h.carried (fun _ _ ↦ address_heldByReceiving) ht hheld hi) hinbound
    have htidy' (others : List Held)
        (htidy : Tidy ((heldByReceiving t.packet (address, stage)).toList ++ others)
          g.primary.forwarder.links g.world) := (htidy.receiving stage).1
    generalize Receiving.advance network t.packet.header.requestId address stage
      g.primary.forwarder = advanced at hm hexchanged hstepped htidy'
    obtain ⟨stage', f'⟩ := advanced
    have hfst : (replies.set i (address, stage')).map Prod.fst = replies.map Prod.fst :=
      Follower.map_set_of_getElem?_eq hi rfl
    have hmarks : Function.update marks client
        (Function.update (marks client) address (marks client address)) = marks := by
      rw [Function.update_eq_self, Function.update_eq_self]
    simp only [g', hstepped]
    refine ⟨?_, hexchanged.differs.members_eq⟩
    rw [← hmarks]
    refine h.exchange (fun _ _ ↦ address_heldByReceiving) ht hheld hi hnodup rfl rfl htask.perm
      ⟨hid, hok, hfollowers.trans hfst.symm, fun a s hs ↦ ?_⟩ htidy' hexchanged
    rw [Function.update_eq_self]
    rcases mem_set_cases hi hs with hs | hs
    · obtain ⟨rfl, rfl⟩ := Prod.mk.inj hs
      exact hm
    · exact hanswered a s (List.mem_of_mem_eraseIdx hs)

theorem Marked.exists_link {m : Mark} {stage : SendStage} (h : Marked m stage)
    (hsettled : stage.isSettled = true) : ∃ link, stage = .settled (some link) none := by
  rcases stage with _ | _ | _ | ⟨_ | link, _ | fault⟩
  case settled.some.none => exact ⟨link, rfl⟩
  case settled.none.none | settled.none.some | settled.some.some => exact h.elim
  all_goals cases hsettled

theorem Answered.exists_link {m : Mark} {stage : ReceiveStage} (h : Answered m stage)
    (hsettled : stage.isSettled = true) : ∃ link fault, stage = .settled (some link) fault := by
  rcases stage with _ | ⟨_ | link, fault⟩
  · cases hsettled
  · cases fault <;> exact h.elim
  · exact ⟨link, fault, rfl⟩

variable (env) in
/-- When every follower was told of a packet, the node applies it, and goes on to collect the replies
unless it was refused. -/
theorem Group.Tracked.sent (h : g.Tracked addresses marks) (ht : g.clients[client]? = some (some t))
    {relays : List (String × SendStage)} (hstage : t.stage = .relaying relays)
    (hsettled : relays.all (·.2.isSettled)) :
    let s := (g.handling t).sent env relays
    let g' := g.put client t s
    let answer := applied env.engine t.packet g.primary.store
    g'.Tracked addresses marks ∧ g'.world.members = g.world.members ∧ g'.primary.store = answer.2 ∧
      (answer.1.header.result = .ok ∧ (∃ replies, s.1 = .collecting replies) ∨
        answer.1.header.result ≠ .ok ∧ s.1 = .leaving false) := by
  intro s g' answer
  have htask := h.tasks client t ht
  obtain ⟨hpacket, hfollowers, hmarked⟩ := htask.telling hstage
  have hheld := t.held_of_relaying hstage
  have hlinked : ∀ r ∈ relays, ∃ link, r.2 = .settled (some link) none := by
    rintro ⟨address, stage⟩ hr
    exact (hmarked address stage hr).exists_link (List.all_eq_true.mp hsettled _ hr)
  have hstreams : (g.handling t).request.packet.header.opcode.streamsReply = false := by
    change t.request.packet.header.opcode.streamsReply = false
    rw [hpacket]
    exact htask.relayable.not_streamed
  obtain ⟨z, hz, hzfollowers, hzslots, hstore, hforwarder, hs⟩ :=
    Handling.exists_sent_eq env hlinked hstreams hfollowers
  have hanswer : applied env.engine (g.handling t).request.packet (g.handling t).node.store =
      answer := by
    change applied env.engine t.request.packet _ = _
    rw [hpacket]
    rfl
  rw [hanswer] at hz hstore hs
  have hperm : z.request.followers.Perm addresses := by
    rw [hzfollowers]
    exact htask.perm
  have hlinks : z.node.forwarder.links = g.primary.forwarder.links := by rw [hforwarder]; rfl
  have hnetwork : z.node.forwarder.network = g.world := by rw [hforwarder]; rfl
  have hs : s = _ := hs
  by_cases hok : answer.1.header.result = .ok
  · rw [if_pos hok] at hs
    have hid : z.request.packet.header.requestId = t.packet.header.requestId := by
      obtain ⟨code, body, hreply⟩ :=
        Handling.exists_applied_eq_reply env.engine t.packet g.primary.store
      rw [hz, show answer.1 = t.packet.reply code body from hreply]
      rfl
    simp only [g', hs]
    refine ⟨h.restage ht rfl hlinks hnetwork (.inl ?_) hperm ⟨hid, by rw [hz, hok], ?_,
      fun address stage hr ↦ ?_⟩, congrArg World.members hnetwork, hstore, .inl ⟨hok, _, rfl⟩⟩
    · rw [hheld]
      change (List.map _ relays).filterMap (heldByReceiving t.packet) = _
      rw [List.filterMap_map]
      refine List.filterMap_congr fun r hr ↦ ?_
      obtain ⟨address, stage⟩ := r
      obtain ⟨link, rfl⟩ := hlinked _ hr
      rfl
    · rw [List.map_map]
      exact hzfollowers.trans hfollowers
    · obtain ⟨r, hr, hsame⟩ := List.mem_map.mp hr
      obtain ⟨link, hlink⟩ := hlinked r hr
      obtain ⟨rfl, rfl⟩ := Prod.mk.inj hsame
      rw [hlink]
      trivial
  · rw [if_neg hok] at hs
    simp only [g', hs]
    refine ⟨h.restage ht rfl hlinks hnetwork (.inr ?_) hperm
      ⟨fun hresult ↦ absurd (hz ▸ hresult) hok, by simp⟩, congrArg World.members hnetwork, hstore,
      .inr ⟨hok, trivial⟩⟩
    change (z.request.followers.zip z.request.slots).filterMap (heldInSlot .unknown) = _
    rw [hzfollowers, show (g.handling t).request.followers = relays.map Prod.fst from hfollowers,
      hzslots, hheld]
    refine filterMap_slots_unknown (heldBySending t.packet) fun r hr ↦ ?_
    obtain ⟨address, stage⟩ := r
    obtain ⟨link, rfl⟩ := hlinked _ hr
    rfl

/-- When the replies of all followers were collected, all of them have read the packet, and if it is
answered with success all of them have accepted it. -/
theorem Group.Tracked.received (h : g.Tracked addresses marks)
    (ht : g.clients[client]? = some (some t)) {replies : List (String × ReceiveStage)}
    (hstage : t.stage = .collecting replies) (hsettled : replies.all (·.2.isSettled)) :
    let s := (g.handling t).received replies
    let g' := g.put client t s
    g'.Tracked addresses marks ∧ g'.world.members = g.world.members ∧
      g'.primary.store = g.primary.store ∧ (∃ ok, s.1 = .leaving ok) ∧
      ∀ address ∈ addresses, ∃ accepted, marks client address = .heard accepted := by
  intro s g'
  have htask := h.tasks client t ht
  obtain ⟨-, -, hfollowers, hanswered⟩ := htask.hearing hstage
  have hheld := t.held_of_collecting hstage
  have hlinked : ∀ r ∈ replies, ∃ link fault, r.2 = .settled (some link) fault := by
    rintro ⟨address, stage⟩ hr
    exact (hanswered address stage hr).exists_link (List.all_eq_true.mp hsettled _ hr)
  have hreply {address : String} (ha : address ∈ t.request.followers) :
      ∃ link fault, (address, .settled (some link) fault) ∈ replies := by
    rw [hfollowers] at ha
    obtain ⟨⟨address, stage⟩, hr, rfl⟩ := List.mem_map.mp ha
    obtain ⟨link, fault, rfl⟩ := hlinked _ hr
    exact ⟨link, fault, hr⟩
  obtain ⟨ok, z, hs, hnone, hpacket, hresult, hzfollowers, hzslots, hstore, hlinks, hnetwork⟩ :=
    Handling.exists_received_eq replies (g.handling t)
  have hs : s = (.leaving ok, z) := hs
  simp only [g', hs]
  refine ⟨h.restage ht rfl hlinks hnetwork ?_ (hzfollowers ▸ htask.perm) ⟨hresult, ?_⟩,
    congrArg World.members hnetwork, hstore, ⟨ok, rfl⟩, fun address ha ↦ ?_⟩
  · change (z.request.followers.zip z.request.slots).filterMap (heldInSlot _) = _ ∨
      (z.request.followers.zip z.request.slots).filterMap (heldInSlot _) = _
    rw [hzfollowers, show (g.handling t).request.followers = replies.map Prod.fst from hfollowers,
      hzslots, hheld]
    cases ok with
    | true =>
      refine .inl (filterMap_slots_eq (heldByReceiving t.packet) fun r hr ↦ ?_)
      obtain ⟨address, stage⟩ := r
      obtain ⟨link, fault, rfl⟩ := hlinked _ hr
      obtain rfl : fault = none := hnone.mp rfl _ hr
      rfl
    | false =>
      refine .inr (filterMap_slots_unknown (heldByReceiving t.packet) fun r hr ↦ ?_)
      obtain ⟨address, stage⟩ := r
      obtain ⟨link, _ | fault, rfl⟩ := hlinked _ hr <;> rfl
  · intro hsuccess address ha
    obtain ⟨link, fault, hr⟩ := hreply (hzfollowers ▸ ha)
    obtain rfl : fault = none := hnone.mp hsuccess _ hr
    exact hanswered address _ hr
  · obtain ⟨link, fault, hr⟩ := hreply (htask.perm.mem_iff.mpr ha)
    have := hanswered address _ hr
    cases fault with
    | none => exact ⟨true, this⟩
    | some fault => exact this

/-- When a packet is answered its links are settled, and what stays unread on a closed line is left there
by a failure. -/
theorem Group.Tracked.leave (henv : env.network = network) (h : g.Tracked addresses marks)
    (ht : g.clients[client]? = some (some t)) {ok : Bool} (hstage : t.stage = .leaving ok) :
    let g' : Group ω τ := { g with
      primary := closed env.elapsed t.packet ((g.handling t).finish env ok)
      clients := g.clients.set client none
      answers := (t.index, t.request.packet) :: g.answers }
    g'.Tracked addresses marks ∧ g'.world.members = g.world.members ∧
      g'.primary.store = g.primary.store ∧
      (ok = true → ∀ address ∈ addresses, marks client address = .heard true) := by
  intro g'
  have htask := h.tasks client t ht
  obtain ⟨hresult, hheard⟩ := htask.ending hstage
  let phase : Phase := if ok then .clean else .unknown
  let slots := t.request.followers.zip t.request.slots
  let f := slots.foldl (Handling.settle network ok) g.primary.forwarder
  have hheld : t.held = slots.filterMap (heldInSlot phase) := t.held_of_leaving hstage
  have hforwarder : g'.primary.forwarder.links = f.links ∧ g'.world = f.network := by
    have hfinish : ((g.handling t).finish env ok).node.forwarder = f := by
      simp only [Handling.finish, henv]
      rfl
    have hstopped := Node.forwarder_stopTimer env.elapsed ((g.handling t).finish env ok)
    rw [hfinish] at hstopped
    exact ⟨(congrArg Forwarder.links hstopped :), (congrArg Forwarder.network hstopped :)⟩
  have hstore : g'.primary.store = g.primary.store :=
    Node.store_stopTimer env.elapsed ((g.handling t).finish env ok)
  obtain ⟨others, hold, hnew, hothers⟩ := exists_held_perm ht
  have htidy := h.tidy.perm hold
  have hsettled : Tidy others f.links f.network := by
    rw [hheld] at htidy
    exact Tidy.settle_append (fun hok ↦ if_pos hok) htidy
  obtain ⟨hcloses, hall⟩ := closes_settle ok phase slots g.primary.forwarder
  rw [← hheld] at hcloses hall
  obtain ⟨hlinks, hworld⟩ := hforwarder
  rw [← hlinks, ← hworld] at hsettled
  change World.Closes _ _ f.network at hcloses
  change _ → ∀ number ∈ _, ∀ line, f.network.lines number = some line → _ at hall
  rw [← hworld] at hcloses hall
  refine ⟨⟨?_, hcloses.differs.still h.still, ?_, ?_, ?_⟩, hcloses.differs.members_eq, hstore,
    fun hok address ha ↦ hheard hok address (htask.perm.mem_iff.mpr ha)⟩
  · exact hsettled.perm (hnew none).symm
  · intro i u hu
    rcases getElem?_set_cases hu with ⟨-, ⟨⟩⟩ | ⟨hi, hu⟩
    exact h.task_of_ne hu htidy (hothers i u hi hu) hcloses.differs.lines_eq
  · intro number line hline hopen hnonempty
    obtain ⟨line, hline', rfl | rfl⟩ := hcloses.exists_line number _ hline
    · obtain ⟨i, u, hu, x, hx, hnumber, hlink, htold, hframe⟩ :=
        h.unread number _ hline' hopen hnonempty
      by_cases hi : i = client
      · -- The packet that leaves has been read by all followers, or its lines were closed.
        subst hi
        obtain rfl : t = u := by simpa [ht] using hu
        cases ok with
        | true =>
          have hslot := (exists_slot_of_mem (hheld ▸ hx)).2
          rw [hheard rfl _ (List.of_mem_zip hslot).1] at htold
          cases htold
        | false =>
          have hclosed := hall rfl number (List.mem_map.mpr ⟨x, hx, hnumber⟩) _ hline
          simp [hclosed] at hopen
      · refine ⟨i, u, ?_, x, hx, hnumber, hlink, htold, hframe⟩
        exact (List.getElem?_set_ne (Ne.symm hi)).trans hu
    · cases hopen
  · intro number line hline hclosed hnonempty
    by_cases hmem : number ∈ t.held.map (·.link.number)
    · cases ok with
      | true =>
        -- A link that is handed back is clean.
        obtain ⟨x, hx, rfl⟩ := List.mem_map.mp hmem
        have hphase : x.phase = .clean := (exists_slot_of_mem (hheld ▸ hx)).1
        obtain ⟨line₀, hline₀, rfl | rfl⟩ := hcloses.exists_line _ line hline <;>
          exact absurd (htidy.outbound_eq_of_clean (List.mem_append_left _ hx) hphase hline₀) hnonempty
      | false =>
        refine ⟨_, List.mem_cons_self, fun hok ↦ ?_⟩
        cases hresult hok
    · obtain ⟨a, ha, hfailed⟩ := h.late number line
        ((hcloses.differs.lines_eq number hmem).symm.trans hline) hclosed hnonempty
      exact ⟨a, List.mem_cons_of_mem _ ha, hfailed⟩

/-- No follower was told of a packet that has just been read. -/
theorem Group.Tracked.begin (h : g.Tracked addresses marks)
    (hidle : g.clients[client]? = some none) {p : Packet} {followers : List String}
    (hp : Relayable p) (hperm : followers.Perm addresses) (buffers : BufferPool) :
    let s := (Node.opening env p (g.primary.setBuffers buffers) .unbounded).departing followers
    { g.put client ⟨g.begun.length, p, s.2.request, s.1⟩ s with begun := g.begun ++ [p] }.Tracked
      addresses (Function.update marks client fun _ ↦ .untold) := by
  intro s
  let t : Task := ⟨g.begun.length, p, s.2.request, s.1⟩
  have hwaiting : t.held = [] := by
    exact filterMap_waiting p followers
  obtain ⟨others, hold, hnew, -⟩ :=
    Follower.exists_flatMap_perm (fun o : Option Task ↦ o.elim [] Task.held) hidle
  have hheld : ((g.clients.set client (some t)).flatMap (·.elim [] Task.held)).Perm g.held := by
    have hnew := hnew (some t)
    rw [Option.elim_some, hwaiting] at hnew
    exact hnew.trans hold.symm
  refine ⟨h.tidy.perm hheld.symm, h.still, ?_, ?_, h.late⟩
  · intro i u hu
    rcases getElem?_set_cases hu with ⟨rfl, ⟨rfl⟩⟩ | ⟨hi, hu⟩
    · rw [Function.update_self]
      refine ⟨hp, hperm, ⟨rfl, ?_, fun address stage hr ↦ ?_⟩, fun x hx _ ↦ ?_⟩
      · exact (Follower.Forwarder.map_fst_waiting followers).symm
      · obtain ⟨_, -, hsame⟩ := List.mem_map.mp hr
        obtain ⟨rfl, rfl⟩ := Prod.mk.inj hsame
        rfl
      · rw [hwaiting] at hx
        cases hx
    · rw [Function.update_of_ne hi]
      exact h.tasks i u hu
  · intro number line hline hopen hnonempty
    obtain ⟨i, u, hu, x, hx, hnumber, hlink, htold, hframe⟩ :=
      h.unread number line hline hopen hnonempty
    have hi : i ≠ client := by
      rintro rfl
      simp [hidle] at hu
    refine ⟨i, u, (List.getElem?_set_ne (Ne.symm hi)).trans hu, x, hx, hnumber, hlink, ?_, hframe⟩
    rw [Function.update_of_ne hi]
    exact htold

end Acts

end ReplicaChain.Cluster
