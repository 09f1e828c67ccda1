import ReplicaChain.Proofs.Cluster.Underway

/-!
# Packets that followers read

A follower that reads a packet on an open line reads one that the node is relaying to it, and from then on
its mark says whether it has accepted the packet.  What a follower reads on a line that the node has closed
is no packet that is under way, and changes no mark.
-/

namespace ReplicaChain.Cluster

open Follower (relayFrame)
open Handling (applied)

variable {ω τ : Type} {addresses : List String}
variable {g : Group ω τ} {client : Nat} {t : Task} {marks : Nat → String → Mark}

/-- A packet holds no two links to one follower. -/
theorem Task.Tracked.held_inj {mark : String → Mark} {w : World ω τ} (haddresses : addresses.Nodup)
    (h : t.Tracked addresses mark w) {x y : Held} (hx : x ∈ t.held) (hy : y ∈ t.held)
    (hsame : x.address = y.address) : x = y := by
  have hfollowers : t.request.followers.Nodup := h.perm.nodup_iff.mpr haddresses
  have hexchanges {St : Type} {heldBy : String × St → Option Held} {l : List (String × St)}
      (haddress : ∀ r x, heldBy r = some x → x.address = r.1)
      (hl : t.request.followers = l.map Prod.fst) (hx : x ∈ l.filterMap heldBy)
      (hy : y ∈ l.filterMap heldBy) : x = y := by
    obtain ⟨r, hr, hrx⟩ := List.mem_filterMap.mp hx
    obtain ⟨r', hr', hry⟩ := List.mem_filterMap.mp hy
    have hkeys : r.1 = r'.1 := by rw [← haddress r x hrx, ← haddress r' y hry, hsame]
    obtain rfl := List.inj_on_of_nodup_map (hl ▸ hfollowers) hr hr' hkeys
    exact Option.some.inj (hrx.symm.trans hry)
  cases hstage : t.stage with
  | relaying relays =>
    rw [t.held_of_relaying hstage] at hx hy
    exact hexchanges (fun _ _ ↦ address_heldBySending) (h.telling hstage).followers_eq hx hy
  | collecting replies =>
    rw [t.held_of_collecting hstage] at hx hy
    exact hexchanges (fun _ _ ↦ address_heldByReceiving) (h.hearing hstage).followers_eq hx hy
  | leaving ok =>
    rw [t.held_of_leaving hstage] at hx hy
    obtain ⟨hphase, hslot⟩ := exists_slot_of_mem hx
    obtain ⟨hphase', hslot'⟩ := exists_slot_of_mem hy
    obtain ⟨i, hi, hxi⟩ := List.mem_iff_getElem.mp hslot
    obtain ⟨j, hj, hyj⟩ := List.mem_iff_getElem.mp hslot'
    rw [List.getElem_zip] at hxi hyj
    obtain ⟨haddress, hlink⟩ := Prod.mk.inj hxi
    obtain ⟨haddress', hlink'⟩ := Prod.mk.inj hyj
    have hkeys := (haddress.trans hsame).trans haddress'.symm
    obtain rfl : i = j := (List.Nodup.getElem_inj_iff hfollowers).mp hkeys
    obtain ⟨address, link, phase⟩ := x
    obtain ⟨address', link', phase'⟩ := y
    obtain rfl : link = link' := Option.some.inj (hlink.symm.trans hlink')
    simp_all

/-- A follower that has read a packet is not told of it any more. -/
theorem Task.Tracked.heard {mark : String → Mark} {w : World ω τ} (h : t.Tracked addresses mark w)
    {address : String} (htold : mark address = .told) (accepted : Bool) :
    t.Agrees (Function.update mark address (.heard accepted)) := by
  cases hstage : t.stage with
  | relaying relays =>
    obtain ⟨hpacket, hfollowers, hmarked⟩ := h.telling hstage
    simp only [Agrees, hstage]
    refine ⟨hpacket, hfollowers, fun a stage hr ↦ ?_⟩
    have hstage := hmarked a stage hr
    by_cases ha : a = address
    · subst ha
      rw [htold] at hstage
      rcases stage with _ | _ | _ | ⟨_ | link, _ | fault⟩
      case settled.some.none => trivial
      case settled.none.none | settled.none.some | settled.some.some => exact hstage.elim
      all_goals cases hstage
    · rwa [Function.update_of_ne ha]
  | collecting replies =>
    obtain ⟨hid, hok, hfollowers, hanswered⟩ := h.hearing hstage
    simp only [Agrees, hstage]
    refine ⟨hid, hok, hfollowers, fun a stage hr ↦ ?_⟩
    have hstage := hanswered a stage hr
    by_cases ha : a = address
    · subst ha
      rw [htold] at hstage
      rcases stage with (_ | link) | ⟨_ | link, _ | fault⟩
      case pending.some => trivial
      case settled.some.none => cases hstage
      case settled.some.some => obtain ⟨_, ⟨⟩⟩ := hstage
      all_goals exact hstage.elim
    · rwa [Function.update_of_ne ha]
  | leaving ok =>
    obtain ⟨hresult, hheard⟩ := h.ending hstage
    simp only [Agrees, hstage]
    refine ⟨hresult, fun hok a ha ↦ ?_⟩
    have hsuccess := hheard hok a ha
    have hne : a ≠ address := by
      rintro rfl
      rw [htold] at hsuccess
      cases hsuccess
    rwa [Function.update_of_ne hne]

theorem Tidy.held_inj {held : List Held} {q : Follower.LinkPool} {w : World ω τ} (h : Tidy held q w)
    {x y : Held} (hx : x ∈ held) (hy : y ∈ held) (hsame : x.link.number = y.link.number) : x = y :=
  List.inj_on_of_nodup_map h.nodup (List.mem_append_right _ hx) (List.mem_append_right _ hy) hsame

/-- When a follower has read a packet its line carries the reply, and the lines to the other followers
are as they were. -/
theorem Task.Tracked.hear {mark : String → Mark} {w w' : World ω τ} (haddresses : addresses.Nodup)
    (h : t.Tracked addresses mark w) (hnumbers : ∀ y ∈ t.held, ∀ z ∈ t.held,
      y.link.number = z.link.number → y = z) {x : Held} (hx : x ∈ t.held)
    (htold : mark x.address = .told)
    (hlines : ∀ number, number ≠ x.link.number → w'.lines number = w.lines number)
    {line line' : Line} (hline : w.lines x.link.number = some line)
    (hline' : w'.lines x.link.number = some line') {accepted : Bool}
    (hheard : line.Carries t.packet .told → line'.Carries t.packet (.heard accepted)) :
    t.Tracked addresses (Function.update mark x.address (.heard accepted)) w' := by
  refine ⟨h.relayable, h.perm, h.heard htold _, fun y hy hasked ↦ ?_⟩
  by_cases hyx : y = x
  · subst hyx
    obtain ⟨line₁, hline₁, hcarries⟩ := h.carried y hy hasked
    obtain rfl := Option.some.inj (hline.symm.trans hline₁)
    rw [htold] at hcarries
    rw [Function.update_self]
    exact ⟨line', hline', hheard hcarries⟩
  · have haddress : y.address ≠ x.address := fun hsame ↦ hyx (h.held_inj haddresses hy hx hsame)
    have hnumber : y.link.number ≠ x.link.number := fun hsame ↦ hyx (hnumbers y hy x hx hsame)
    rw [Function.update_of_ne haddress, hlines _ hnumber]
    exact h.carried y hy hasked

/-- A follower reads a packet that it was told of, and applies it. -/
theorem Group.Tracked.hear (haddresses : addresses.Nodup) (h : g.Tracked addresses marks)
    (ht : g.clients[client]? = some (some t)) {x : Held} (hx : x ∈ t.held) {number : Nat}
    (hnumber : x.link.number = number) {line : Line} (hline : g.world.lines number = some line)
    (hlink : line.link = x.link)
    (htold : marks client x.address = .told) (hframe : line.outbound = relayFrame t.packet)
    (turn : Turn ω τ) :
    let g' := g.setWorld (g.world.answer number turn)
    let answer := applied turn.env.engine t.packet (g.world.members x.address).store
    g' = g ∨ g'.Tracked addresses (Function.update marks client (Function.update (marks client)
        x.address (.heard (answer.1.header.result = .ok)))) ∧
      ∀ a, (g'.world.members a).store =
        if a = x.address then answer.2 else (g.world.members a).store := by
  intro g' answer
  have htask := h.tasks client t ht
  obtain ⟨others, hold, hnew, hothers⟩ := exists_held_perm ht
  have htidy := h.tidy.perm hold
  have haddress : line.link.address = x.address := by
    rw [hlink]
    exact (htidy.bears x (List.mem_append_right _ (List.mem_append_left _ hx))).address_eq
  rcases World.answer_told turn htask.relayable hline hframe with
    hsame | ⟨m, line', code, body, rest, hanswer, hstore, hcode, hlink', hclosed', hout', hin'⟩
  · exact .inl (by simp only [g', hsame]; rfl)
  rw [haddress] at hanswer hstore hcode
  have hlines {i : Nat} (hi : i ≠ number) : g'.world.lines i = g.world.lines i :=
    World.lines_answer_of_ne hi turn g.world
  have hself : g'.world.lines number = some line' := by
    simp only [g', hanswer]
    exact if_pos rfl
  have hmembers (a : String) : (g'.world.members a).store =
      if a = x.address then answer.2 else (g.world.members a).store := by
    simp only [g', hanswer]
    change (if a = x.address then m else g.world.members a).store = _
    split
    · exact hstore
    · rfl
  refine .inr ⟨⟨h.tidy.evolve (World.evolves_answer number turn g.world),
    World.still_answer h.still number turn, ?_, ?_, ?_⟩, hmembers⟩
  · intro i u (hu : g.clients[i]? = some (some u))
    by_cases hi : i = client
    · subst hi
      obtain rfl : t = u := by simpa [ht] using hu
      rw [Function.update_self]
      exact htask.hear haddresses
        (fun y hy z hz ↦ htidy.held_inj (List.mem_append_left _ hy) (List.mem_append_left _ hz)) hx htold
        (fun i hi ↦ hlines (hnumber ▸ hi)) (hnumber.symm ▸ hline) (hnumber.symm ▸ hself)
        fun hcarries ↦ ⟨hout', code, body, rest, hin' hcarries.2, by simp [answer, hcode]⟩
    · rw [Function.update_of_ne hi]
      refine h.task_of_ne hu htidy (hothers i u hi hu) fun i hi ↦ hlines fun hsame ↦ hi ?_
      exact List.mem_map.mpr ⟨x, hx, hnumber.trans hsame.symm⟩
  · intro number' line₁ hline₁ hopen' hnonempty
    by_cases hnumber' : number' = number
    · subst hnumber'
      obtain rfl := Option.some.inj (hself.symm.trans hline₁)
      exact absurd hout' hnonempty
    · obtain ⟨i, u, hu, y, hy, hynumber, hylink, hytold, hyframe⟩ :=
        h.unread number' line₁ ((hlines hnumber').symm.trans hline₁) hopen' hnonempty
      refine ⟨i, u, hu, y, hy, hynumber, hylink, ?_, hyframe⟩
      by_cases hi : i = client
      · subst hi
        obtain rfl : t = u := by simpa [ht] using hu
        have hne : y.address ≠ x.address := by
          intro hsame
          obtain rfl := htask.held_inj haddresses hy hx hsame
          exact hnumber' (hynumber.symm.trans hnumber)
        rw [Function.update_self, Function.update_of_ne hne, hytold]
      · rw [Function.update_of_ne hi, hytold]
  · intro number' line₁ hline₁ hclosed hnonempty
    by_cases hnumber' : number' = number
    · subst hnumber'
      obtain rfl := Option.some.inj (hself.symm.trans hline₁)
      exact absurd hout' hnonempty
    · exact h.late number' line₁ ((hlines hnumber').symm.trans hline₁) hclosed hnonempty

/-- What a follower reads on a closed line is no packet that is under way. -/
theorem Group.Tracked.hearLate (h : g.Tracked addresses marks) {number : Nat} {line : Line}
    (hline : g.world.lines number = some line) (hclosed : line.closed = true) (turn : Turn ω τ) :
    let g' := g.setWorld (g.world.answer number turn)
    g'.Tracked addresses marks ∧ ∀ a, a ≠ line.link.address →
      g'.world.members a = g.world.members a := by
  intro g'
  rcases World.answer_cases number turn g.world with
    hsame | ⟨line₁, m, line', hline₁, -, hnonempty, -, hclosed', -, hanswer⟩
  · have hg : g' = g := by
      simp only [g', hsame]
      rfl
    rw [hg]
    exact ⟨h, fun _ _ ↦ rfl⟩
  obtain rfl := Option.some.inj (hline.symm.trans hline₁)
  have hlines {i : Nat} (hi : i ≠ number) : g'.world.lines i = g.world.lines i :=
    World.lines_answer_of_ne hi turn g.world
  have hself : g'.world.lines number = some line' := by
    simp only [g', hanswer]
    exact if_pos rfl
  refine ⟨⟨h.tidy.evolve (World.evolves_answer number turn g.world),
    World.still_answer h.still number turn, ?_, ?_, ?_⟩, fun a ha ↦ ?_⟩
  · intro i u hu
    obtain ⟨hrelayable, hperm, hagrees, hcarried⟩ := h.tasks i u hu
    obtain ⟨others, hold, -⟩ := exists_held_perm (show g.clients[i]? = some (some u) from hu)
    have htidy := h.tidy.perm hold
    refine ⟨hrelayable, hperm, hagrees, fun x hx hasked ↦ ?_⟩
    have hbears := htidy.bears x (List.mem_append_right _ (List.mem_append_left _ hx))
    have hne : x.link.number ≠ number := by
      rintro rfl
      obtain ⟨line₂, hline₂, -, hin⟩ := hbears.exists_line (by simp [hasked])
      obtain rfl := Option.some.inj (hline.symm.trans hline₂)
      rw [hasked] at hin
      simp [hin.not_closed] at hclosed
    rw [hlines hne]
    exact hcarried x hx hasked
  · intro number' line₁ hline₁ hopen hnonempty'
    have hne : number' ≠ number := by
      rintro rfl
      obtain rfl := Option.some.inj (hself.symm.trans hline₁)
      simp [hclosed', hclosed] at hopen
    exact h.unread number' line₁ ((hlines hne).symm.trans hline₁) hopen hnonempty'
  · intro number' line₁ hline₁ hclosed₁ hnonempty'
    by_cases hnumber : number' = number
    · exact h.late number line hline hclosed hnonempty
    · exact h.late number' line₁ ((hlines hnumber).symm.trans hline₁) hclosed₁ hnonempty'
  · simp only [g', hanswer]
    exact if_neg ha

end ReplicaChain.Cluster
