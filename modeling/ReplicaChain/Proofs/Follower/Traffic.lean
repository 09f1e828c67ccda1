import Mathlib.Algebra.BigOperators.Group.List.Basic
import Mathlib.Algebra.Ring.Nat
import Mathlib.Logic.Relation
import ReplicaChain.Proofs.Follower.Lending

/-!
# A pool in use by many callers

Calls of a pool run at the same time, and between two steps of one call any number of steps of others may
be taken.  A step is one access to the count, to the idle links or to the draining flag, a dial that
ends, or the closing of a link.  The lock on the idle links is left out, since it only rules out some of
the orders.

The count may run ahead of the limit for as long as callers that came too late have not given their places
up again.  It never falls behind: every link that is idle, on loan or being dialed has a place in it, and so
has everything that a call is still to take off it.
-/

namespace ReplicaChain.Follower

/-! ## Steps of a call -/

inductive CallStage where
  /-- A link is asked for. -/
  | asking (address : String)
  /-- The pool was seen not to be draining. -/
  | seeking (address : String)
  /-- No idle link was found. -/
  | reserving (address : String)
  /-- The count was found to be at the limit, after it was raised. -/
  | beyond
  | dialing (link : Link)
  /-- The dial of a link failed. -/
  | unopened
  /-- A link is handed back. -/
  | returning (address : String) (link : Link) (keep : Bool)
  /-- The link may be kept, as the pool was seen not to be draining. -/
  | parking (address : String) (link : Link)
  | closing (link : Link)
  /-- A link must not be used again. -/
  | evicting (link : Link)
  /-- So many links are closed and still to be forgotten. -/
  | forgetting (n : Nat)
  /-- The pool is to be drained. -/
  | flagging
  /-- The pool is marked as draining. -/
  | emptying

namespace CallStage

/-- The steps of a call: the stage after a step unless the call has ended, and the link that the caller
gets by it. -/
inductive Moves : CallStage → LinkPool → Option CallStage → Option Link → LinkPool → Prop
  | refused {address : String} {p : LinkPool} (h : p.draining = true) :
      Moves (.asking address) p none none p
  | admitted {address : String} {p : LinkPool} (h : p.draining = false) :
      Moves (.asking address) p (some (.seeking address)) none p
  | found {address : String} {link : Link} {p q : LinkPool}
      (h : p.takeIdle address = some (link, q)) : Moves (.seeking address) p none (some link) q
  | missed {address : String} {p : LinkPool} (h : p.takeIdle address = none) :
      Moves (.seeking address) p (some (.reserving address)) none p
  | reserved {address : String} {p : LinkPool} (h : p.countUp.1 < p.limits.maxLinks) :
      Moves (.reserving address) p (some (.dialing (p.countUp.2.number address).1)) none
        (p.countUp.2.number address).2
  | overshot {address : String} {p : LinkPool} (h : p.limits.maxLinks ≤ p.countUp.1) :
      Moves (.reserving address) p (some .beyond) none p.countUp.2
  | stoodBack {p : LinkPool} : Moves .beyond p none none p.overLimit
  | opened {link : Link} {p : LinkPool} : Moves (.dialing link) p none (some link) p.opened
  | failed {link : Link} {p : LinkPool} : Moves (.dialing link) p (some .unopened) none p
  | gaveUp {p : LinkPool} : Moves .unopened p none none p.notOpened
  | kept {address : String} {link : Link} {p : LinkPool} (h : p.draining = false) :
      Moves (.returning address link true) p (some (.parking address link)) none p
  | unwanted {address : String} {link : Link} {keep : Bool} {p : LinkPool}
      (h : keep = false ∨ p.draining = true) :
      Moves (.returning address link keep) p (some (.closing link)) none p
  | parked {address : String} {link : Link} {p q : LinkPool} (h : p.park address link = some q) :
      Moves (.parking address link) p none none q
  | full {address : String} {link : Link} {p : LinkPool} (h : p.park address link = none) :
      Moves (.parking address link) p (some (.closing link)) none p
  | closed {link : Link} {p : LinkPool} : Moves (.closing link) p (some (.forgetting 1)) none p
  | evicted {link : Link} {p : LinkPool} :
      Moves (.evicting link) p (some (.forgetting 1)) none
        { p with tally := { p.tally with evicted := p.tally.evicted + 1 } }
  | forgot {n : Nat} {p : LinkPool} :
      Moves (.forgetting (n + 1)) p (some (.forgetting n)) none p.forget
  | ended {p : LinkPool} : Moves (.forgetting 0) p none none p
  | flagged {p : LinkPool} : Moves .flagging p (some .emptying) none { p with draining := true }
  | emptied {p : LinkPool} :
      Moves .emptying p (some (.forgetting p.idle.length)) none { p with idle := [] }

/-! ## Places in the count -/

/-- The links that a call holds: one that it dials, or one that was handed back and is not closed yet. -/
def held : CallStage → Nat
  | .dialing _ | .returning _ _ _ | .parking _ _ | .closing _ | .evicting _ => 1
  | _ => 0

/-- The places that a call is to give up for links that are gone. -/
def owed : CallStage → Nat
  | .unopened => 1
  | .forgetting n => n
  | _ => 0

/-- The place that a call has taken beyond the limit. -/
def excess : CallStage → Nat
  | .beyond => 1
  | _ => 0

variable {s : CallStage} {s' : Option CallStage} {link : Option Link} {p q : LinkPool}

def weigh (weight : CallStage → Nat) (calls : List CallStage) : Nat :=
  (calls.map weight).sum

@[simp]
theorem weigh_nil (weight : CallStage → Nat) : weigh weight [] = 0 := rfl

@[simp]
theorem weigh_cons (weight : CallStage → Nat) (s : CallStage) (calls : List CallStage) :
    weigh weight (s :: calls) = weight s + weigh weight calls := by
  simp [weigh]

@[simp]
theorem weigh_append (weight : CallStage → Nat) (calls calls' : List CallStage) :
    weigh weight (calls ++ calls') = weigh weight calls + weigh weight calls' := by
  simp [weigh]

theorem le_weigh (weight : CallStage → Nat) {calls : List CallStage} (h : s ∈ calls) :
    weight s ≤ weigh weight calls := by
  obtain ⟨before, rest, rfl⟩ := List.append_of_mem h
  rw [weigh_append, weigh_cons]
  omega

theorem weigh_excess_le (calls : List CallStage) : weigh excess calls ≤ calls.length := by
  induction calls with
  | nil => exact Nat.le_refl 0
  | cons s calls ih =>
    have hs : s.excess ≤ 1 := by cases s <;> simp [excess]
    rw [weigh_cons, List.length_cons]
    omega

/-- A step moves the count with the places that are held, owed and taken in excess. -/
theorem Moves.total_add (h : s.Moves p s' link q) (hs : s.owed + s.excess ≤ p.total) :
    q.total + (p.idle.length + s.held + s.owed + s.excess) =
      p.total + (q.idle.length + link.toList.length + weigh held s'.toList +
        weigh owed s'.toList + weigh excess s'.toList) := by
  cases h with
  | found h =>
    obtain ⟨newer, older, hidle, -, rfl⟩ := LinkPool.takeIdle_eq_some h
    simp [hidle, held, owed, excess]
    omega
  | parked h =>
    obtain ⟨-, rfl⟩ := LinkPool.park_eq_some h
    simp [held, owed, excess]
  | _ =>
    simp [held, owed, excess, LinkPool.countUp, LinkPool.number, LinkPool.overLimit,
      LinkPool.countDown, LinkPool.opened, LinkPool.notOpened, LinkPool.forget] at hs ⊢ <;> omega

/-- A step adds a link, or a place for one, only below the limit. -/
theorem Moves.live_le (h : s.Moves p s' link q) :
    q.idle.length + link.toList.length + weigh held s'.toList + weigh owed s'.toList ≤
        p.idle.length + s.held + s.owed ∨
      q.idle.length + link.toList.length + weigh held s'.toList + weigh owed s'.toList =
          p.idle.length + s.held + s.owed + 1 ∧ p.total < p.limits.maxLinks := by
  cases h with
  | found h =>
    obtain ⟨newer, older, hidle, -, rfl⟩ := LinkPool.takeIdle_eq_some h
    refine .inl (Nat.le_of_eq ?_)
    simp [hidle, held, owed, Nat.add_assoc]
  | parked h =>
    obtain ⟨-, rfl⟩ := LinkPool.park_eq_some h
    exact .inl (by simp [held, owed])
  | reserved h => exact .inr ⟨by simp [held, owed, LinkPool.countUp, LinkPool.number], h⟩
  | _ =>
    exact .inl (by
      simp [held, owed, LinkPool.countUp, LinkPool.overLimit, LinkPool.countDown, LinkPool.opened,
        LinkPool.notOpened, LinkPool.forget])

theorem Moves.limits_eq (h : s.Moves p s' link q) : q.limits = p.limits := by
  cases h with
  | found h =>
    obtain ⟨newer, older, -, -, rfl⟩ := LinkPool.takeIdle_eq_some h
    rfl
  | parked h => rw [(LinkPool.park_eq_some h).2]
  | _ => rfl

end CallStage

/-- The link that is lent with the answer to a request. -/
def Grant.inHand : Grant → List Link
  | .idle link => [link]
  | .toDial _ | .refused _ => []

/-- What is still to be done after the answer to a request. -/
def Grant.underway : Grant → List CallStage
  | .toDial link => [.dialing link]
  | .idle _ | .refused _ => []

/-! ## Many calls -/

open CallStage

/-- A pool, the links that it has on loan, and the calls that are under way. -/
structure Traffic where
  pool : LinkPool
  lent : List Link
  calls : List CallStage

namespace Traffic

def start (limits : LinkLimits) : Traffic :=
  ⟨.empty limits, [], []⟩

/-- The links that are idle, on loan, being dialed or on their way back. -/
def live (t : Traffic) : Nat :=
  t.pool.idle.length + t.lent.length + weigh held t.calls

/-- A call begins, or one of those under way takes a step.  Only a link on loan is given back. -/
inductive Step : Traffic → Traffic → Prop
  | asks {t : Traffic} (address : String) : Step t { t with calls := .asking address :: t.calls }
  | returns {t : Traffic} {link : Link} (address : String) (keep : Bool) (h : link ∈ t.lent) :
      Step t { t with
        lent := t.lent.erase link, calls := .returning address link keep :: t.calls }
  | destroys {t : Traffic} {link : Link} (h : link ∈ t.lent) :
      Step t { t with lent := t.lent.erase link, calls := .evicting link :: t.calls }
  | drains {t : Traffic} : Step t { t with calls := .flagging :: t.calls }
  | moves {t : Traffic} {before rest : List CallStage} {s : CallStage} {s' : Option CallStage}
      {link : Option Link} {q : LinkPool} (h : t.calls = before ++ s :: rest)
      (hs : s.Moves t.pool s' link q) :
      Step t ⟨q, link.toList ++ t.lent, before ++ s'.toList ++ rest⟩

/-- Whether a state comes about from another one by steps of calls, in whatever order. -/
abbrev Reaches : Traffic → Traffic → Prop := Relation.ReflTransGen Step

/-- The count covers the live links and the places to be given up, and but for the places taken in excess
it is within the limit. -/
structure Covered (limits : LinkLimits) (t : Traffic) : Prop where
  limits_eq : t.pool.limits = limits
  total_eq : t.pool.total = t.live + weigh owed t.calls + weigh excess t.calls
  live_le : t.live + weigh owed t.calls ≤ limits.maxLinks

variable {limits : LinkLimits} {t t' : Traffic}

theorem covered_start (limits : LinkLimits) : (start limits).Covered limits :=
  ⟨rfl, rfl, Nat.zero_le _⟩

/-- What a call is to take off the count is in it, beside the live links. -/
theorem Covered.owed_le (h : t.Covered limits) {s : CallStage} (hs : s ∈ t.calls) :
    t.live + (s.owed + s.excess) ≤ t.pool.total := by
  have htotal := h.total_eq
  have howed := le_weigh owed hs
  have hexcess := le_weigh excess hs
  omega

/-- Whoever gives a link back holds it from then on. -/
theorem Covered.handedBack (h : t.Covered limits) {link : Link} (hlink : link ∈ t.lent)
    {s : CallStage} (hheld : s.held = 1) (howed : s.owed = 0) (hexcess : s.excess = 0) :
    Covered limits { t with lent := t.lent.erase link, calls := s :: t.calls } := by
  have hlength := List.length_erase_of_mem hlink
  have hpos := List.length_pos_of_mem hlink
  have htotal := h.total_eq
  have hlive := h.live_le
  refine ⟨h.limits_eq, ?_, ?_⟩ <;>
  · simp only [live, weigh_cons, hheld, howed, hexcess] at htotal hlive ⊢
    omega

theorem Covered.step (h : t.Covered limits) (hstep : t.Step t') : t'.Covered limits := by
  have htotal := h.total_eq
  have hlive := h.live_le
  cases hstep with
  | asks address | drains =>
    exact ⟨h.limits_eq, by simpa [live, held, owed, excess] using htotal,
      by simpa [live, held, owed] using hlive⟩
  | returns address keep hlink => exact h.handedBack hlink rfl rfl rfl
  | destroys hlink => exact h.handedBack hlink rfl rfl rfl
  | @moves before rest s s' link q hcalls hs =>
    -- What the call may take off is in the count, so the count never stops at zero instead of going down.
    have howed : s.owed + s.excess ≤ t.pool.total :=
      Nat.le_of_add_left_le (h.owed_le (hcalls ▸ by simp))
    have htotal_add := hs.total_add howed
    have hlive_le := hs.live_le
    have hlimits := h.limits_eq
    refine ⟨hs.limits_eq.trans hlimits, ?_, ?_⟩ <;>
    · simp only [live, hcalls, weigh_append, weigh_cons, List.length_append] at htotal hlive ⊢
      simp only [hlimits] at hlive_le
      omega

theorem Covered.reaches (h : t.Covered limits) (hreach : t.Reaches t') : t'.Covered limits := by
  induction hreach with
  | refl => exact h
  | tail _ hstep ih => exact ih.step hstep

/-! ## Calls one after another -/

section Sequential

variable {σ : Type} {p q : LinkPool} {lent : List Link} {calls : List CallStage} {address : String}
  {link : Link}

/-- The call that began last takes a step. -/
theorem Step.newest {s : CallStage} {s' : Option CallStage} {link : Option Link}
    (hs : s.Moves p s' link q) :
    Step ⟨p, lent, s :: calls⟩ ⟨q, link.toList ++ lent, s'.toList ++ calls⟩ :=
  @Step.moves ⟨p, lent, s :: calls⟩ [] calls s s' link q rfl hs

/-- A call that has links to forget can do so to its end. -/
theorem reaches_forgetMany (n : Nat) (p : LinkPool) :
    Reaches ⟨p, lent, .forgetting n :: calls⟩ ⟨p.forgetMany n, lent, calls⟩ := by
  induction n generalizing p with
  | zero => exact .single (.newest .ended)
  | succ n ih => exact .head (.newest .forgot) (ih p.forget)

/-- The steps of a call come to what a request for a link does. -/
theorem reaches_request (address : String) (p : LinkPool) :
    Reaches ⟨p, lent, calls⟩ ⟨(p.request address).2, (p.request address).1.inHand ++ lent,
      (p.request address).1.underway ++ calls⟩ := by
  refine .head (.asks address) ?_
  rw [LinkPool.request]
  split
  · rename_i hdraining
    exact .single (.newest (.refused hdraining))
  · rename_i hdraining
    refine .head (.newest (.admitted (Bool.not_eq_true _ ▸ hdraining))) ?_
    split
    · rename_i hfound
      exact .single (.newest (.found hfound))
    · rename_i hmissed
      refine .head (.newest (.missed hmissed)) ?_
      dsimp only
      split
      · rename_i hlimit
        exact .head (.newest (.overshot hlimit)) (.single (.newest .stoodBack))
      · rename_i hlimit
        exact .single (.newest (.reserved (Nat.lt_of_not_le hlimit)))

theorem reaches_acquire {f : Forwarder σ} {answer : Except Fault Link × Forwarder σ}
    (h : f.Acquires address answer) :
    Reaches ⟨f.links, lent, calls⟩
      ⟨answer.2.links, answer.1.toOption.toList ++ lent, calls⟩ := by
  have hrequest : Reaches ⟨f.links, lent, calls⟩ _ := reaches_request address f.links
  cases h with
  | reused hr | refused hr =>
    rw [hr] at hrequest
    exact hrequest
  | dialed hr =>
    rw [hr] at hrequest
    exact hrequest.tail (.newest .opened)
  | undialed hr =>
    rw [hr] at hrequest
    exact (hrequest.tail (.newest .failed)).tail (.newest .gaveUp)

theorem reaches_closing (link : Link) (p : LinkPool) :
    Reaches ⟨p, lent, .closing link :: calls⟩ ⟨p.forget, lent, calls⟩ :=
  .head (.newest .closed) (reaches_forgetMany 1 p)

theorem reaches_release (hlink : link ∈ lent) (address : String) (keep : Bool) (p : LinkPool) :
    Reaches ⟨p, lent, calls⟩ ⟨(p.release address link keep).2, lent.erase link, calls⟩ := by
  refine .head (.returns address keep hlink) ?_
  rw [LinkPool.release]
  split
  · rename_i hkeep
    simp only [Bool.and_eq_true, Bool.not_eq_true'] at hkeep
    obtain ⟨rfl, hdraining⟩ := hkeep
    refine .head (.newest (.kept hdraining)) ?_
    split
    · rename_i hparked
      exact .single (.newest (.parked hparked))
    · rename_i hfull
      exact .head (.newest (.full hfull)) (reaches_closing link p)
  · rename_i hkeep
    refine .head (.newest (.unwanted ?_)) (reaches_closing link p)
    cases keep <;> simp_all

theorem reaches_destroy (hlink : link ∈ lent) (p : LinkPool) :
    Reaches ⟨p, lent, calls⟩ ⟨p.destroy, lent.erase link, calls⟩ :=
  .head (.destroys hlink) <| .head (.newest .evicted) <| reaches_forgetMany 1 _

theorem reaches_drain (p : LinkPool) :
    Reaches ⟨p, lent, calls⟩ ⟨p.drain.2, lent, calls⟩ :=
  .head .drains <| .head (.newest .flagged) <| .head (.newest .emptied) <|
    reaches_forgetMany _ _

theorem reaches_after (net : Network σ) {l : Lending σ} {c : Call} (hc : l.IsDue c) :
    Reaches ⟨l.forwarder.links, l.lent, calls⟩
      ⟨(l.after net c).forwarder.links, (l.after net c).lent, calls⟩ := by
  cases c with
  | acquire address => exact reaches_acquire (l.forwarder.acquires_acquire net address)
  | release address link keep => exact reaches_release hc address keep _
  | destroy link => exact reaches_destroy hc _
  | drain => exact reaches_drain _

/-- Whatever calls that follow one another come to, steps of calls come to as well. -/
theorem reaches_run (net : Network σ) {l : Lending σ} {cs : List Call} (hcs : l.AllDue net cs) :
    Reaches ⟨l.forwarder.links, l.lent, calls⟩
      ⟨(l.run net cs).forwarder.links, (l.run net cs).lent, calls⟩ := by
  induction cs generalizing l with
  | nil => exact .refl
  | cons c cs ih => exact (reaches_after net hcs.1).trans (ih hcs.2)

end Sequential

/-! ## The limit -/

/-- However the steps of any number of calls mix, there are never more links that are idle, on loan or being
dialed than the limit, and never more than the count tells.  What a call takes off the count is in it
beside those links, and the count is beyond the limit by no more than the calls under way. -/
theorem limit_kept (hreach : (start limits).Reaches t) :
    t.live ≤ limits.maxLinks ∧ t.live ≤ t.pool.total ∧
      (∀ s ∈ t.calls, t.live + (s.owed + s.excess) ≤ t.pool.total) ∧
      t.pool.total ≤ limits.maxLinks + t.calls.length := by
  have h := (covered_start limits).reaches hreach
  have htotal := h.total_eq
  have hlive := h.live_le
  have hexcess := weigh_excess_le t.calls
  exact ⟨by omega, by omega, fun _ ↦ h.owed_le, by omega⟩

/-- Where one link may be, a second call that raises the count while the first one dials finds it at the
limit.  Until it stands back the count is two, for one link. -/
theorem limit_kept_overshot :
    let t : Traffic := ⟨{ LinkPool.empty ⟨8, 1, 5000⟩ with total := 2, nextNumber := 1 }, [],
      [.beyond, .dialing ⟨0, "a"⟩]⟩
    (start ⟨8, 1, 5000⟩).Reaches t ∧ t.live = 1 ∧ t.live ≤ 1 ∧
      t.live + CallStage.beyond.excess ≤ t.pool.total ∧ t.pool.total = 2 := by
  intro t
  have hreach : (start ⟨8, 1, 5000⟩).Reaches t :=
    .head (.asks "a") <| .head (.newest (.admitted rfl)) <| .head (.newest (.missed rfl)) <|
      .head (.newest (.reserved (by decide))) <|
      .head (.asks "b") <| .head (.newest (.admitted rfl)) <| .head (.newest (.missed rfl)) <|
      .single (.newest (.overshot (by decide)))
  obtain ⟨hlimit, -, howed, -⟩ := limit_kept hreach
  exact ⟨hreach, rfl, hlimit, howed .beyond (List.mem_cons_self ..), rfl⟩

end Traffic

end ReplicaChain.Follower
