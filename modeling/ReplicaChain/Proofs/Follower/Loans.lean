import ReplicaChain.Proofs.Follower.Exchanges
import ReplicaChain.Proofs.Follower.Lending

/-!
# The loans of one packet

A packet is sent to all its followers at the same time, so the links for it are asked for, dialed and
obtained in any order.  `LinkPool.Lends` tells what a pool comes to by this: which links were lent, each
for the address that it was asked for, and which are still being dialed.  When every relay has come to
its end, nothing is being dialed any more, and the links lent are those that the relays ended with.

Afterwards the loans are settled one after another.  Whatever the pool counts beyond the links that are
idle or on loan elsewhere is on loan to the packet, so nothing is left over when all loans are settled.
-/

namespace ReplicaChain.Follower

variable {σ : Type}

/-! ## Lending -/

namespace LinkPool

/-- What comes of a pool when links are asked for and dialed, in any order: the links lent and the links
being dialed, each with the address it was asked for. -/
inductive Lends (p : LinkPool) : List (String × Link) → List (String × Link) → LinkPool → Prop
  | start : Lends p [] [] p
  | refused {loans dials : List (String × Link)} {q r : LinkPool} {address : String} {fault : Fault}
      (h : Lends p loans dials q) (hr : q.request address = (.refused fault, r)) :
      Lends p loans dials r
  | reused {loans dials : List (String × Link)} {q r : LinkPool} {address : String} {link : Link}
      (h : Lends p loans dials q) (hr : q.request address = (.idle link, r)) :
      Lends p ((address, link) :: loans) dials r
  | dialed {loans dials : List (String × Link)} {q r : LinkPool} {address : String} {link : Link}
      (h : Lends p loans dials q) (hr : q.request address = (.toDial link, r)) :
      Lends p loans ((address, link) :: dials) r
  | opened {loans dials : List (String × Link)} {q : LinkPool} {l : String × Link}
      (h : Lends p loans (l :: dials) q) : Lends p (l :: loans) dials q.opened
  | notOpened {loans dials : List (String × Link)} {q : LinkPool} {l : String × Link}
      (h : Lends p loans (l :: dials) q) : Lends p loans dials q.notOpened
  | perm {loans loans' dials dials' : List (String × Link)} {q : LinkPool}
      (h : Lends p loans dials q) (hloans : loans.Perm loans') (hdials : dials.Perm dials') :
      Lends p loans' dials' q

/-- The count goes up with the links that are lent or being dialed and were not idle before. -/
theorem Lends.total_eq {p q : LinkPool} {loans dials : List (String × Link)}
    (h : p.Lends loans dials q) {others : Nat} (hp : p.total = p.idle.length + others) :
    q.total = q.idle.length + others + loans.length + dials.length := by
  induction h with
  | start => exact hp
  | refused h hr ih =>
    obtain ⟨hidle, htotal, -⟩ := request_refused hr
    rw [htotal, hidle, ih]
  | reused h hr ih =>
    obtain ⟨newer, older, hidle, -, rfl⟩ := takeIdle_eq_some (request_idle hr)
    simp only [hidle, List.length_append, List.length_cons] at ih ⊢
    omega
  | dialed h hr ih =>
    obtain ⟨-, -, -, rfl⟩ := request_toDial hr
    simp only [List.length_cons]
    omega
  | opened h ih =>
    simp only [LinkPool.opened, List.length_cons] at ih ⊢
    omega
  | notOpened h ih =>
    simp only [LinkPool.notOpened, countDown, List.length_cons] at ih ⊢
    omega
  | perm h hloans hdials ih => rw [← hloans.length_eq, ← hdials.length_eq, ih]

end LinkPool

/-! ## Relays -/

def loanOf : String × SendStage → Option (String × Link)
  | (address, .connected link) => some (address, link)
  | (address, .settled link _) => link.map (address, ·)
  | (_, .waiting) | (_, .dialing _) => none

def dialOf : String × SendStage → Option (String × Link)
  | (address, .dialing link) => some (address, link)
  | _ => none

theorem dialOf_settled {r : String × SendStage} (h : ∃ link fault, r.2 = .settled link fault) :
    dialOf r = none := by
  obtain ⟨address, stage⟩ := r
  obtain ⟨link, fault, rfl⟩ := h
  rfl

/-- One advance of a relay lends no more than it takes. -/
theorem lends_advance {p : LinkPool} {net : Network σ} {frame : ByteArray}
    {relays : List (String × SendStage)} {f : Forwarder σ} {i : Nat} {address : String}
    {stage : SendStage} (hi : relays[i]? = some (address, stage))
    (h : p.Lends (relays.filterMap loanOf) (relays.filterMap dialOf) f.links) :
    let advanced := Sending.advance net frame address stage f
    p.Lends ((relays.set i (address, advanced.1)).filterMap loanOf)
      ((relays.set i (address, advanced.1)).filterMap dialOf) advanced.2.links := by
  intro advanced
  obtain ⟨loans, hloan, hloan', -⟩ := exists_filterMap_perm loanOf hi
  obtain ⟨dials, hdial, hdial', -⟩ := exists_filterMap_perm dialOf hi
  have hbefore := h.perm hloan hdial
  refine LinkPool.Lends.perm ?_ (hloan' _).symm (hdial' _).symm
  have hadv : Sending.Advances net frame address stage f advanced.1 advanced.2 :=
    Sending.advances_advance net frame address stage f
  generalize advanced = a at hadv ⊢
  obtain ⟨stage', f'⟩ := a
  cases hadv with
  | refused hr => exact hbefore.refused hr
  | idle hr => exact hbefore.reused hr
  | dialing hr hd => exact hbefore.dialed hr
  | dialed hr hd => exact (hbefore.dialed hr).opened
  | undialed fault hr hd ha => exact (hbefore.dialed hr).notOpened
  | awaited hd => exact hbefore.opened
  | unawaited fault hd ha => exact hbefore.notOpened
  | written hw | unwritten hw | settled => exact hbefore

/-- After all relays came to their end, the links lent are those that they ended with. -/
theorem lends_relayed (net : Network σ) (schedule : List Nat) (frame : ByteArray)
    (followers : List String) (f : Forwarder σ) :
    let run := f.relayed net schedule frame followers
    f.links.Lends (run.1.filterMap loanOf) [] run.2.links := by
  intro run
  have hstart : f.links.Lends ((followers.map (·, SendStage.waiting)).filterMap loanOf)
      ((followers.map (·, SendStage.waiting)).filterMap dialOf) f.links := by
    have hloans : (followers.map (·, SendStage.waiting)).filterMap loanOf = [] := by simp [loanOf]
    have hdials : (followers.map (·, SendStage.waiting)).filterMap dialOf = [] := by simp [dialOf]
    rw [hloans, hdials]
    exact .start
  have hrun : f.links.Lends (run.1.filterMap loanOf) (run.1.filterMap dialOf) run.2.links :=
    runAll_induction (P := fun relays f' ↦
      f.links.Lends (relays.filterMap loanOf) (relays.filterMap dialOf) f'.links)
      (fun l f' i address stage hi h ↦ lends_advance hi h) _ hstart
  have hdone : run.1.filterMap dialOf = [] :=
    List.filterMap_eq_nil_iff.mpr fun r hr ↦ dialOf_settled (Forwarder.settled_of_mem_relayed hr)
  rwa [hdone] at hrun

/-! ## Settling -/

namespace Lending

/-- The calls that settle loans: each link is handed back under the address it was lent for, to be kept,
if all went well, and is destroyed otherwise. -/
def settling (ok : Bool) (loans : List (String × Link)) : List Call :=
  loans.map fun l ↦ if ok then .release l.1 l.2 true else .destroy l.2

/-- The loans of a packet may be settled one by one, and then the packet has no link on loan. -/
theorem settling_due (net : Network σ) (ok : Bool) (loans : List (String × Link)) (lent : List Link)
    (f : Forwarder σ) :
    (⟨f, loans.map Prod.snd ++ lent⟩ : Lending σ).AllDue net (settling ok loans) ∧
      ((⟨f, loans.map Prod.snd ++ lent⟩ : Lending σ).run net (settling ok loans)).lent = lent := by
  induction loans generalizing f with
  | nil => exact ⟨trivial, rfl⟩
  | cons l loans ih =>
    have hdue : l.2 ∈ l.2 :: (loans.map Prod.snd ++ lent) := List.mem_cons_self
    have herase : (l.2 :: (loans.map Prod.snd ++ lent)).erase l.2 = loans.map Prod.snd ++ lent :=
      List.erase_cons_head ..
    cases ok with
    | true =>
      have := ih (f.release net l.1 l.2 true)
      rw [← herase] at this
      exact ⟨⟨hdue, this.1⟩, this.2⟩
    | false =>
      have := ih (f.destroy net l.2)
      rw [← herase] at this
      exact ⟨⟨hdue, this.1⟩, this.2⟩

/-- The count is that of the idle links and those on loan. -/
def Counted (l : Lending σ) : Prop :=
  l.forwarder.links.total = l.forwarder.links.idle.length + l.lent.length

/-- Every call keeps the count right. -/
theorem Counted.after {net : Network σ} {l : Lending σ} {c : Call} (h : l.Counted)
    (hc : l.IsDue c) : (l.after net c).Counted := by
  cases c with
  | acquire address =>
    have hlends : l.forwarder.links.Lends [] [] l.forwarder.links := .start
    have hacquires := l.forwarder.acquires_acquire net address
    simp only [Lending.after, Counted]
    generalize l.forwarder.acquire net address = acquired at hacquires ⊢
    cases hacquires with
    | @reused link q hr =>
      change q.total = q.idle.length + (link :: l.lent).length
      rw [(hlends.reused hr).total_eq h, List.length_cons]
      exact Nat.add_assoc ..
    | @dialed link q network hr =>
      change q.opened.total = q.opened.idle.length + (link :: l.lent).length
      rw [(hlends.dialed hr).opened.total_eq h, List.length_cons]
      exact Nat.add_assoc ..
    | undialed hr => exact (hlends.dialed hr).notOpened.total_eq h
    | refused hr => exact (hlends.refused hr).total_eq h
  | release address link keep =>
    have hlength := List.length_erase_of_mem hc
    have hpos := List.length_pos_of_mem hc
    simp only [Counted, Lending.after, Forwarder.release] at h ⊢
    rcases LinkPool.release_cases address link keep l.forwarder.links with hr | hr <;> rw [hr]
    · simp only [List.length_cons]
      omega
    · simp only [LinkPool.forget, LinkPool.countDown]
      omega
  | destroy link =>
    have hlength := List.length_erase_of_mem hc
    have hpos := List.length_pos_of_mem hc
    simp only [Counted, Lending.after, Forwarder.destroy, LinkPool.destroy, LinkPool.forget,
      LinkPool.countDown] at h ⊢
    omega
  | drain =>
    simp only [Counted, Lending.after, Forwarder.drain, LinkPool.drain,
      LinkPool.forgetMany_eq] at h ⊢
    simp [h]

theorem Counted.run {net : Network σ} {l : Lending σ} {calls : List Call} (h : l.Counted)
    (hcalls : l.AllDue net calls) : (l.run net calls).Counted := by
  induction calls generalizing l with
  | nil => exact h
  | cons c calls ih => exact ih (h.after hcalls.1) hcalls.2

end Lending

end ReplicaChain.Follower
