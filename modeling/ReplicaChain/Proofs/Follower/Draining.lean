import ReplicaChain.Proofs.Follower.Traffic

/-!
# Draining a pool in use

A drain first marks the pool and then takes all idle links at once.  A link that is handed back after the mark
is closed.  A link whose borrower has seen the pool unmarked is put among the idle ones without a second look,
so if that happens only after the drain took them, then the link stays in a pool that nobody will use again.
No other link does: what is idle in the end was on its way back, past the look at the mark, when the drain took
the idle links.
-/

namespace ReplicaChain.Follower

namespace CallStage

variable {s : CallStage} {s' : Option CallStage} {lent : Option Link} {p q : LinkPool} {link : Link}

def parks (link : Link) : CallStage → Nat
  | .parking _ other => if other = link then 1 else 0
  | _ => 0

theorem weigh_parks_eq_zero {calls : List CallStage}
    (h : ∀ address link, .parking address link ∉ calls) (link : Link) :
    weigh (parks link) calls = 0 := by
  induction calls with
  | nil => rfl
  | cons s calls ih =>
    have hs : s.parks link = 0 := by
      cases s with
      | parking address other => exact absurd (List.mem_cons_self ..) (h address other)
      | _ => rfl
    rw [weigh_cons, hs, ih fun address link hmem ↦ h address link (List.mem_cons_of_mem _ hmem)]

/-- A pool that drains goes on draining. -/
theorem Moves.draining (h : s.Moves p s' lent q) (hp : p.draining = true) : q.draining = true := by
  cases h with
  | found h =>
    obtain ⟨newer, older, -, -, rfl⟩ := LinkPool.takeIdle_eq_some h
    exact hp
  | parked h => rwa [(LinkPool.park_eq_some h).2]
  | flagged => rfl
  | _ => exact hp

/-- Once a pool drains, a link becomes idle only if a call was to put it there. -/
theorem Moves.parks_le (h : s.Moves p s' lent q) (hp : p.draining = true) (link : Link) :
    (q.idle.map Prod.snd).count link + weigh (parks link) s'.toList ≤
      (p.idle.map Prod.snd).count link + s.parks link := by
  cases h with
  | found h =>
    obtain ⟨newer, older, hidle, -, rfl⟩ := LinkPool.takeIdle_eq_some h
    simp only [hidle, List.map_append, List.map_cons, List.count_append, List.count_cons,
      Option.toList_none, weigh_nil]
    omega
  | parked h =>
    obtain ⟨-, rfl⟩ := LinkPool.park_eq_some h
    simp [parks, List.count_cons]
  | kept h => rw [hp] at h; cases h
  | _ =>
    simp [parks, LinkPool.countUp, LinkPool.number, LinkPool.overLimit, LinkPool.countDown,
      LinkPool.opened, LinkPool.notOpened, LinkPool.forget]

end CallStage

open CallStage

namespace Traffic

variable {limits : LinkLimits} {t t' u u' : Traffic} {link : Link}

/-- A pool that has not been called yet, and a drain of it that may take its first step at any time. -/
def toDrain (limits : LinkLimits) : Traffic :=
  ⟨.empty limits, [], [.flagging]⟩

def Empties (u u' : Traffic) : Prop :=
  ∃ before rest, u.calls = before ++ .emptying :: rest ∧
    u' = ⟨{ u.pool with idle := [] }, u.lent, before ++ .forgetting u.pool.idle.length :: rest⟩

/-- A step other than the beginning of a drain. -/
def Joins (t t' : Traffic) : Prop :=
  t.Step t' ∧ t'.calls ≠ .flagging :: t.calls

/-- How often a link is idle or about to be. -/
def parked (link : Link) (t : Traffic) : Nat :=
  (t.pool.idle.map Prod.snd).count link + weigh (parks link) t.calls

/-- The call that began before the last one takes a step. -/
theorem Step.earlier {p q : LinkPool} {lent : List Link} {r s : CallStage} {calls : List CallStage}
    {s' : Option CallStage} {link : Option Link} (hs : s.Moves p s' link q) :
    Step ⟨p, lent, r :: s :: calls⟩ ⟨q, link.toList ++ lent, r :: (s'.toList ++ calls)⟩ :=
  @Step.moves ⟨p, lent, r :: s :: calls⟩ [r] calls s s' link q rfl hs

/-! ## The mark -/

theorem Step.draining (h : t.Step t') (ht : t.pool.draining = true) : t'.pool.draining = true := by
  cases h with
  | moves hcalls hs => exact hs.draining ht
  | _ => exact ht

/-- A call that is under way stays so, or it is the one that takes a step. -/
theorem Step.mem_calls (h : t.Step t') {s : CallStage} (hs : s ∈ t.calls) :
    s ∈ t'.calls ∨ ∃ before rest s' lent q, t.calls = before ++ s :: rest ∧
      s.Moves t.pool s' lent q ∧ t' = ⟨q, lent.toList ++ t.lent, before ++ s'.toList ++ rest⟩ := by
  cases h with
  | @moves before rest r r' lent q hcalls hmoves =>
    rw [hcalls, List.mem_append, List.mem_cons] at hs
    rcases hs with hs | rfl | hs
    · exact .inl (by simp [hs])
    · exact .inr ⟨before, rest, r', lent, q, hcalls, hmoves, rfl⟩
    · exact .inl (by simp [hs])
  | _ => exact .inl (List.mem_cons_of_mem _ hs)

/-- A drain takes the idle links of a pool that it marked before. -/
def MarkedFirst (t : Traffic) : Prop :=
  .emptying ∈ t.calls → t.pool.draining = true

theorem MarkedFirst.step (h : t.MarkedFirst) (hstep : t.Step t') : t'.MarkedFirst := by
  intro hempties
  cases hstep with
  | @moves before rest s s' lent q hcalls hs =>
    simp only [List.mem_append] at hempties
    rcases hempties with (hbefore | hnext) | hrest
    · exact hs.draining (h (by simp [hcalls, hbefore]))
    · -- Only the step that marks the pool leads to this stage.
      rw [Option.mem_toList] at hnext
      subst hnext
      cases hs
      rfl
    · exact hs.draining (h (by simp [hcalls, hrest]))
  | _ =>
    rw [List.mem_cons] at hempties
    rcases hempties with hnew | hold
    · cases hnew
    · exact h hold

/-- A drain that was called is still to mark the pool, is still to take the idle links, or has taken them. -/
def Drains (limits : LinkLimits) (t : Traffic) : Prop :=
  .flagging ∈ t.calls ∨ .emptying ∈ t.calls ∨
    ∃ u u', (toDrain limits).Reaches u ∧ u.Empties u' ∧ u'.Reaches t

theorem Drains.step (hreach : (toDrain limits).Reaches t) (h : t.Drains limits) (hstep : t.Step t') :
    t'.Drains limits := by
  rcases h with hflagging | hemptying | ⟨u, u', hu, hempties, ht⟩
  · rcases hstep.mem_calls hflagging with hstays | ⟨before, rest, s', lent, q, -, hs, rfl⟩
    · exact .inl hstays
    · cases hs
      exact .inr (.inl (by simp))
  · rcases hstep.mem_calls hemptying with hstays | ⟨before, rest, s', lent, q, hcalls, hs, rfl⟩
    · exact .inr (.inl hstays)
    · cases hs
      exact .inr (.inr ⟨t, _, hreach, ⟨before, rest, hcalls, by simp⟩, .refl⟩)
  · exact .inr (.inr ⟨u, u', hu, hempties, ht.tail hstep⟩)

theorem drains_of_reaches (hreach : (toDrain limits).Reaches t) :
    t.MarkedFirst ∧ t.Drains limits := by
  induction hreach with
  | refl => exact ⟨by simp [MarkedFirst, toDrain], .inl (by simp [toDrain])⟩
  | tail hreach hstep ih => exact ⟨ih.1.step hstep, ih.2.step hreach hstep⟩

/-! ## After the idle links were taken -/

theorem Step.parked_le (h : t.Step t') (ht : t.pool.draining = true) (link : Link) :
    t'.parked link ≤ t.parked link := by
  cases h with
  | @moves before rest s s' lent q hcalls hs =>
    have hle := hs.parks_le ht link
    simp only [parked, hcalls, weigh_append, weigh_cons]
    omega
  | _ => simp [parked, parks]

theorem parked_le_of_reaches (h : t.Reaches t') (ht : t.pool.draining = true) (link : Link) :
    t'.parked link ≤ t.parked link ∧ t'.pool.draining = true := by
  induction h with
  | refl => exact ⟨Nat.le_refl _, ht⟩
  | tail _ hstep ih => exact ⟨(hstep.parked_le ih.2 link).trans ih.1, hstep.draining ih.2⟩

theorem Empties.parked_eq (h : u.Empties u') (link : Link) :
    u'.parked link = weigh (parks link) u.calls ∧ u'.pool.draining = u.pool.draining := by
  obtain ⟨before, rest, hcalls, rfl⟩ := h
  exact ⟨by simp [parked, hcalls, parks], rfl⟩

/-- What any number of calls leave in a pool of which a drain was called, once all of them have ended and all
links were given back.  The count is that of the idle links.  The drain has taken all links that were
idle at some moment, and an idle link is one that a call was to put there at that moment, having seen the pool
unmarked.  So if there was no such call then nothing is left. -/
theorem left_by_drain (hreach : (toDrain limits).Reaches t) (hcalls : t.calls = [])
    (hlent : t.lent = []) :
    t.pool.draining = true ∧ t.pool.total = t.pool.idle.length ∧
      (∃ u u', (toDrain limits).Reaches u ∧ u.Empties u' ∧ u'.Reaches t) ∧
      ∀ u u', (toDrain limits).Reaches u → u.Empties u' → u'.Reaches t →
        (∀ link, (t.pool.idle.map Prod.snd).count link ≤ weigh (parks link) u.calls) ∧
          ((∀ address link, .parking address link ∉ u.calls) →
            t.pool.idle = [] ∧ t.pool.total = 0) := by
  have hcovered : t.Covered limits := (covered_start limits).reaches (.head .drains hreach)
  have htotal : t.pool.total = t.pool.idle.length := by
    simpa [live, hcalls, hlent] using hcovered.total_eq
  have hleft (u u' : Traffic) (hu : (toDrain limits).Reaches u) (hempties : u.Empties u')
      (ht : u'.Reaches t) : t.pool.draining = true ∧
        ∀ link, (t.pool.idle.map Prod.snd).count link ≤ weigh (parks link) u.calls := by
    have hmarked : u.pool.draining = true := by
      obtain ⟨before, rest, hcalls, -⟩ := hempties
      exact (drains_of_reaches hu).1 (by simp [hcalls])
    have hkept (link : Link) := parked_le_of_reaches ht ((hempties.parked_eq link).2.trans hmarked) link
    refine ⟨(hkept ⟨0, ""⟩).2, fun link ↦ ?_⟩
    have hle := (hkept link).1
    rw [(hempties.parked_eq link).1, parked, hcalls] at hle
    exact hle
  have hdrains : ∃ u u', (toDrain limits).Reaches u ∧ u.Empties u' ∧ u'.Reaches t := by
    rcases (drains_of_reaches hreach).2 with h | h | h
    · simp [hcalls] at h
    · simp [hcalls] at h
    · exact h
  obtain ⟨u, u', hu, hempties, ht⟩ := hdrains
  refine ⟨(hleft u u' hu hempties ht).1, htotal, ⟨u, u', hu, hempties, ht⟩,
    fun u u' hu hempties ht ↦ ⟨(hleft u u' hu hempties ht).2, fun hnone ↦ ?_⟩⟩
  have hidle : t.pool.idle.map Prod.snd = [] := by
    refine List.eq_nil_iff_forall_not_mem.mpr fun link hlink ↦ ?_
    have hcount := List.count_pos_iff.mpr hlink
    have hle := (hleft u u' hu hempties ht).2 link
    have hzero : weigh (parks link) u.calls = 0 := weigh_parks_eq_zero hnone link
    omega
  have hidle : t.pool.idle = [] := List.map_eq_nil_iff.mp hidle
  exact ⟨hidle, by rw [htotal, hidle]; rfl⟩

/-- A link is handed back after the drain marked the pool, and nothing is left. -/
theorem left_by_drain_returned :
    let t : Traffic := ⟨{ LinkPool.empty ⟨8, 4, 5000⟩ with draining := true, nextNumber := 1 }, [], []⟩
    (toDrain ⟨8, 4, 5000⟩).Reaches t ∧ t.pool.idle = [] ∧ t.pool.total = 0 := by
  intro t
  let link : Link := ⟨0, "a"⟩
  let marked : LinkPool := { LinkPool.empty ⟨8, 4, 5000⟩ with
    total := 1, draining := true, nextNumber := 1, tally := ⟨1, 0, 0, 0⟩ }
  let u : Traffic := ⟨marked, [], [.returning "a" link true, .emptying]⟩
  let u' : Traffic := ⟨marked, [], [.returning "a" link true, .forgetting 0]⟩
  have hborrowed : (toDrain ⟨8, 4, 5000⟩).Reaches ⟨marked, [link], [.emptying]⟩ :=
    .head (.asks "a") <| .head (.newest (.admitted rfl)) <| .head (.newest (.missed rfl)) <|
      .head (.newest (.reserved (by decide))) <| .head (.newest .opened) <|
      .single (.newest .flagged)
  have hreturned : Step ⟨marked, [link], [.emptying]⟩ u :=
    @Step.returns ⟨marked, [link], [.emptying]⟩ link "a" true (List.mem_cons_self ..)
  have hu : (toDrain ⟨8, 4, 5000⟩).Reaches u := hborrowed.tail hreturned
  have hstep : u.Step u' := .earlier .emptied
  have hempties : u.Empties u' := ⟨[.returning "a" link true], [], rfl, rfl⟩
  have ht : u'.Reaches t :=
    .head (.newest (.unwanted (.inr rfl))) <| .head (.newest .closed) <| .head (.newest .forgot) <|
      .head (.newest .ended) <| .single (.newest .ended)
  have hreach : (toDrain ⟨8, 4, 5000⟩).Reaches t := (hu.tail hstep).trans ht
  obtain ⟨-, -, -, hleft⟩ := left_by_drain hreach rfl rfl
  exact ⟨hreach, (hleft u u' hu hempties ht).2 (by simp [u])⟩

/-- A borrower hands a link back and sees the pool unmarked.  Then the pool is marked and drained, and after
that the link is put among the idle ones.  One drain was called and one link was borrowed, everything has
ended, and the link is idle in a pool that is drained. -/
theorem left_by_drain_parked :
    let link : Link := ⟨0, "a"⟩
    ∃ t, Relation.ReflTransGen Joins (toDrain ⟨8, 4, 5000⟩) t ∧ t.calls = [] ∧ t.lent = [] ∧
      t.pool.draining = true ∧ t.pool.idle = [("a", link)] ∧ t.pool.total = 1 := by
  intro link
  let p : LinkPool := { LinkPool.empty ⟨8, 4, 5000⟩ with
    total := 1, nextNumber := 1, tally := ⟨1, 0, 0, 0⟩ }
  have hborrowed : Relation.ReflTransGen Joins (toDrain ⟨8, 4, 5000⟩) ⟨p, [link], [.flagging]⟩ :=
    .head ⟨.asks "a", nofun⟩ <| .head ⟨.newest (.admitted rfl), nofun⟩ <|
      .head ⟨.newest (.missed rfl), nofun⟩ <| .head ⟨.newest (.reserved (by decide)), nofun⟩ <|
      .single ⟨.newest .opened, nofun⟩
  have hseen : Relation.ReflTransGen Joins ⟨p, [link], [.flagging]⟩
      ⟨p, [], [.parking "a" link, .flagging]⟩ :=
    .head ⟨.returns "a" true (List.mem_cons_self ..), nofun⟩ <|
      .single ⟨.newest (.kept rfl), nofun⟩
  have hdrained : Relation.ReflTransGen Joins ⟨p, [], [.parking "a" link, .flagging]⟩
      ⟨{ p with draining := true }, [], [.parking "a" link]⟩ :=
    .head ⟨.earlier .flagged, nofun⟩ <| .head ⟨.earlier .emptied, nofun⟩ <|
      .single ⟨.earlier .ended, nofun⟩
  exact ⟨_, ((hborrowed.trans hseen).trans hdrained).tail ⟨.newest (.parked rfl), nofun⟩,
    rfl, rfl, rfl, rfl, rfl⟩

end Traffic

end ReplicaChain.Follower
