import ReplicaChain.Follower.Forwarder
import ReplicaChain.Proofs.Follower.LinkPool

/-!
# The links of a pool and their borrowers

A pool keeps its idle links and a count.  The links on loan are with their borrowers, so whether the
count is right shows only when both are looked at together.  A link that was dialed is idle or on loan
until it is forgotten, and each call of the pool moves one link, or none, from one place to another.
From this follow the limits that a pool keeps, and what a drain leaves behind.
-/

namespace ReplicaChain.Follower

variable {σ : Type}

/-! ## Links in stock -/

namespace LinkPool

variable {limits : LinkLimits} {address : String} {link : Link} {lent lent' : List Link}
  {p q : LinkPool} {fault : Fault}

/-- The links that a pool has dialed and not forgotten: the idle ones and those on loan. -/
def stock (lent : List Link) (p : LinkPool) : List Link :=
  p.idle.map Prod.snd ++ lent

/-- The count of a pool is that of its links, which are told apart, and the limits are kept.  A pool that
is draining has no idle links. -/
structure Balanced (limits : LinkLimits) (lent : List Link) (p : LinkPool) : Prop where
  limits_eq : p.limits = limits
  total_eq : p.total = (p.stock lent).length
  total_le : p.total ≤ limits.maxLinks
  active_eq : p.tally.active = p.total
  idle_le : ∀ address, p.idleCount address ≤ limits.idlePerAddress
  nodup : ((p.stock lent).map Link.number).Nodup
  numbered : ∀ link ∈ p.stock lent, link.number < p.nextNumber
  emptied : p.draining = true → p.idle = []

theorem balanced_empty (limits : LinkLimits) : (empty limits).Balanced limits [] where
  limits_eq := rfl
  total_eq := rfl
  total_le := Nat.zero_le _
  active_eq := rfl
  idle_le _ := Nat.zero_le _
  nodup := List.nodup_nil
  numbered := by simp [stock, empty]
  emptied _ := rfl

/-- Some links may be forgotten, and all others may change hands. -/
theorem Balanced.handOver (h : p.Balanced limits lent) (dropped : List Link)
    (hperm : (p.stock lent).Perm (q.stock lent' ++ dropped)) (hlimits : q.limits = p.limits)
    (htotal : q.total = p.total - dropped.length)
    (hactive : q.tally.active = p.tally.active - dropped.length)
    (hnumber : q.nextNumber = p.nextNumber)
    (hidle : ∀ address, q.idleCount address ≤ limits.idlePerAddress)
    (hemptied : q.draining = true → q.idle = []) : q.Balanced limits lent' := by
  have hlength : p.total = (q.stock lent').length + dropped.length := by
    rw [h.total_eq, hperm.length_eq, List.length_append]
  have htotal_le := h.total_le
  refine ⟨hlimits.trans h.limits_eq, by omega, by omega, ?_, hidle, ?_, fun link hlink ↦ ?_,
    hemptied⟩
  · rw [hactive, h.active_eq]
    omega
  · have hnodup := (hperm.map Link.number).nodup_iff.mp h.nodup
    rw [List.map_append] at hnodup
    exact hnodup.of_append_left
  · rw [hnumber]
    exact h.numbered link (hperm.mem_iff.mpr (List.mem_append_left _ hlink))

/-! ## Requests -/

/-- A request that takes an idle link lends it. -/
theorem Balanced.request_idle (h : p.Balanced limits lent)
    (hr : p.request address = (.idle link, q)) : q.Balanced limits (link :: lent) := by
  obtain ⟨newer, older, hidle, -, rfl⟩ := takeIdle_eq_some (LinkPool.request_idle hr)
  refine h.handOver [] ?_ rfl rfl (by simp) rfl (fun a ↦ ?_) ?_
  · simp only [stock, hidle, List.map_append, List.map_cons, List.append_nil, List.append_assoc,
      List.cons_append]
    exact List.perm_middle.symm.append_left _
  · have hcount := h.idle_le a
    simp only [idleCount, hidle, List.countP_append, List.countP_cons] at hcount ⊢
    omega
  · intro hdraining
    simpa [hidle] using h.emptied hdraining

/-- A dial that succeeds adds a link that was never there before. -/
theorem Balanced.dialed (h : p.Balanced limits lent) (hr : p.request address = (.toDial link, q)) :
    q.opened.Balanced limits (link :: lent) := by
  obtain ⟨rfl, hlt, -, rfl⟩ := request_toDial hr
  have hlimits := h.limits_eq
  have htotal := h.total_eq
  have hperm : (p.idle.map Prod.snd ++ ⟨p.nextNumber, address⟩ :: lent).Perm
      (⟨p.nextNumber, address⟩ :: p.stock lent) := List.perm_middle
  refine ⟨hlimits, ?_, ?_, ?_, h.idle_le, ?_, fun link hlink ↦ ?_, h.emptied⟩
  · change p.total + 1 = (p.idle.map Prod.snd ++ _ :: lent).length
    rw [hperm.length_eq, List.length_cons, htotal]
  · rw [← hlimits]
    exact hlt
  · change p.tally.active + 1 = ((p.total + 1 : Nat) : Int)
    rw [h.active_eq, Int.natCast_succ]
  · refine (hperm.map Link.number).nodup_iff.mpr (List.nodup_cons.mpr ⟨?_, h.nodup⟩)
    intro hmem
    obtain ⟨link, hlink, hnumber⟩ := List.mem_map.mp hmem
    exact Nat.ne_of_lt (h.numbered link hlink) hnumber
  · change link.number < p.nextNumber + 1
    rcases List.mem_cons.mp (hperm.mem_iff.mp hlink) with rfl | hlink
    · exact Nat.lt_succ_self _
    · exact Nat.lt_succ_of_lt (h.numbered link hlink)

/-- A dial that fails leaves nothing but a number that is not given again. -/
theorem Balanced.undialed (h : p.Balanced limits lent)
    (hr : p.request address = (.toDial link, q)) :
    q.notOpened.Balanced limits lent ∧ q.notOpened.idle = p.idle ∧
      q.notOpened.total = p.total ∧ q.notOpened.tally = p.tally := by
  obtain ⟨-, -, -, rfl⟩ := request_toDial hr
  refine ⟨⟨h.limits_eq, h.total_eq, h.total_le, h.active_eq, h.idle_le, h.nodup,
    fun link hlink ↦ ?_, h.emptied⟩, rfl, rfl, rfl⟩
  exact Nat.lt_succ_of_lt (h.numbered link hlink)

theorem active_of_request_refused (hr : p.request address = (.refused fault, q)) :
    q.tally.active = p.tally.active := by
  unfold request at hr
  split at hr
  · rw [← (Prod.mk.inj hr).2]
  · split at hr
    · simp at hr
    · dsimp only at hr
      split at hr
      · rw [← (Prod.mk.inj hr).2]
        rfl
      · simp at hr

theorem Balanced.request_refused (h : p.Balanced limits lent)
    (hr : p.request address = (.refused fault, q)) : q.Balanced limits lent := by
  have hactive := active_of_request_refused hr
  obtain ⟨hidle, htotal, hnumber, hlimits, hdraining, -⟩ := LinkPool.request_refused hr
  refine h.handOver [] ?_ hlimits htotal (by simpa using hactive) hnumber (fun a ↦ ?_) ?_
  · rw [stock, stock, hidle, List.append_nil]
  · rw [idleCount, hidle]
    exact h.idle_le a
  · rw [hidle, hdraining]
    exact h.emptied

/-! ## Returns -/

theorem park_eq_some (h : p.park address link = some q) :
    p.idleCount address < p.limits.idlePerAddress ∧
      q = { p with idle := (address, link) :: p.idle } := by
  unfold park at h
  split at h
  · exact ⟨‹_›, (Option.some.inj h).symm⟩
  · cases h

theorem release_kept {keep : Bool} (hr : p.release address link keep = (true, q)) :
    keep = true ∧ p.draining = false ∧ p.park address link = some q := by
  unfold release at hr
  split at hr
  · rename_i hkeep
    split at hr
    · rename_i hpark
      simp_all
    · simp at hr
  · simp at hr

theorem release_forgotten {keep : Bool} (hr : p.release address link keep = (false, q)) :
    q = p.forget := by
  rcases release_cases address link keep p with hcases | hcases <;> simp_all

/-- A link on loan may be forgotten. -/
theorem Balanced.forget (h : p.Balanced limits lent) (hlink : link ∈ lent) :
    p.forget.Balanced limits (lent.erase link) := by
  refine h.handOver [link] ?_ rfl rfl rfl rfl h.idle_le h.emptied
  rw [stock, stock, List.append_assoc]
  exact ((List.perm_cons_erase hlink).trans
    (List.perm_append_singleton link (lent.erase link)).symm).append_left _

theorem Balanced.release (h : p.Balanced limits lent) (hlink : link ∈ lent) (address : String)
    (keep : Bool) : (p.release address link keep).2.Balanced limits (lent.erase link) := by
  rcases hr : p.release address link keep with ⟨_ | _, q⟩
  · rw [release_forgotten hr]
    exact h.forget hlink
  · obtain ⟨-, hdraining, hpark⟩ := release_kept hr
    obtain ⟨hroom, rfl⟩ := park_eq_some hpark
    refine h.handOver [] ?_ rfl rfl (by simp) rfl (fun a ↦ ?_) (by simp [hdraining])
    · simp only [stock, List.map_cons, List.append_nil]
      exact ((List.perm_cons_erase hlink).append_left _).trans List.perm_middle
    · -- Only the address that the link is parked under has one idle link more, and it had room.
      have hidle := h.idle_le a
      rw [h.limits_eq] at hroom
      simp only [idleCount, List.countP_cons] at hidle hroom ⊢
      split
      · rename_i heq
        obtain rfl : address = a := by simpa using heq
        omega
      · exact hidle

theorem Balanced.destroy (h : p.Balanced limits lent) (hlink : link ∈ lent) :
    p.destroy.Balanced limits (lent.erase link) := by
  have hevicted : LinkPool.Balanced limits lent
      { p with tally := { p.tally with evicted := p.tally.evicted + 1 } } :=
    ⟨h.limits_eq, h.total_eq, h.total_le, h.active_eq, h.idle_le, h.nodup, h.numbered, h.emptied⟩
  exact hevicted.forget hlink

/-! ## Draining -/

theorem forgetMany_eq (n : Nat) (p : LinkPool) :
    forgetMany n p =
      { p with total := p.total - n, tally := { p.tally with active := p.tally.active - n } } := by
  induction n generalizing p with
  | zero => simp [forgetMany]
  | succ n ih =>
    rw [forgetMany, ih]
    simp only [LinkPool.forget, countDown, mk.injEq, LinkTally.mk.injEq, true_and, and_true]
    omega

theorem Balanced.drain (h : p.Balanced limits lent) : p.drain.2.Balanced limits lent := by
  rw [LinkPool.drain, forgetMany_eq]
  refine h.handOver (p.idle.map Prod.snd) ?_ rfl (by simp) (by simp) rfl
    (fun a ↦ Nat.zero_le _) fun _ ↦ rfl
  exact List.perm_append_comm

end LinkPool

/-! ## Borrowing and giving back -/

/-- How a forwarder answers when a link is asked for: with an idle link, with one that was dialed, or
not at all, because a dial failed or the pool refused. -/
inductive Forwarder.Acquires (address : String) (f : Forwarder σ) :
    Except Fault Link × Forwarder σ → Prop
  | reused {link : Link} {q : LinkPool} (hr : f.links.request address = (.idle link, q)) :
      Acquires address f (.ok link, { f with links := q })
  | dialed {link : Link} {q : LinkPool} {network : σ}
      (hr : f.links.request address = (.toDial link, q)) :
      Acquires address f (.ok link, { f with links := q.opened, network })
  | undialed {link : Link} {q : LinkPool} {network : σ} {fault : Fault}
      (hr : f.links.request address = (.toDial link, q)) :
      Acquires address f (.error fault, { f with links := q.notOpened, network })
  | refused {q : LinkPool} {fault : Fault}
      (hr : f.links.request address = (.refused fault, q)) :
      Acquires address f (.error fault, { f with links := q })

theorem Forwarder.acquires_acquire (net : Network σ) (address : String) (f : Forwarder σ) :
    f.Acquires address (f.acquire net address) := by
  have hconclude (link : Link) (q : LinkPool) (network : σ) (a : Attempt)
      (hr : f.links.request address = (.toDial link, q)) :
      f.Acquires address ({ f with links := q, network }.conclude link a) := by
    cases a with
    | succeeded => exact .dialed hr
    | failed fault => exact .undialed hr
    | expired => exact .undialed hr
  rw [acquire]
  rcases hr : f.links.request address with ⟨link | link | fault, q⟩
  · exact .reused hr
  · dsimp only
    rcases net.dial link f.network with ⟨_ | a, network⟩ <;> exact hconclude link q _ _ hr
  · exact .refused hr

structure Lending (σ : Type) where
  forwarder : Forwarder σ
  lent : List Link

inductive Call where
  | acquire (address : String)
  | release (address : String) (link : Link) (keep : Bool)
  | destroy (link : Link)
  | drain
  deriving DecidableEq

namespace Lending

def start (limits : LinkLimits) (buffers : BufferPool) (network : σ) : Lending σ :=
  ⟨⟨.empty limits, buffers, 0, 0, network⟩, []⟩

/-- Whether a call may be made: only a link on loan is given back. -/
def IsDue (l : Lending σ) : Call → Prop
  | .acquire _ | .drain => True
  | .release _ link _ | .destroy link => link ∈ l.lent

instance (l : Lending σ) : DecidablePred l.IsDue
  | .acquire _ | .drain => isTrue trivial
  | .release _ link _ | .destroy link => inferInstanceAs (Decidable (link ∈ l.lent))

def after (net : Network σ) (l : Lending σ) : Call → Lending σ
  | .acquire address =>
    let acquired := l.forwarder.acquire net address
    ⟨acquired.2, acquired.1.toOption.toList ++ l.lent⟩
  | .release address link keep =>
    ⟨l.forwarder.release net address link keep, l.lent.erase link⟩
  | .destroy link => ⟨l.forwarder.destroy net link, l.lent.erase link⟩
  | .drain => ⟨(l.forwarder.drain net).2, l.lent⟩

def run (net : Network σ) (l : Lending σ) (calls : List Call) : Lending σ :=
  calls.foldl (after net) l

def AllDue (net : Network σ) : Lending σ → List Call → Prop
  | _, [] => True
  | l, c :: calls => l.IsDue c ∧ AllDue net (l.after net c) calls

instance decidableAllDue (net : Network σ) :
    ∀ (l : Lending σ) (calls : List Call), Decidable (l.AllDue net calls)
  | _, [] => isTrue trivial
  | l, c :: calls =>
    have := decidableAllDue net (l.after net c) calls
    inferInstanceAs (Decidable (l.IsDue c ∧ AllDue net (l.after net c) calls))

def Balanced (limits : LinkLimits) (l : Lending σ) : Prop :=
  l.forwarder.links.Balanced limits l.lent

variable {net : Network σ} {limits : LinkLimits} {l : Lending σ}

theorem Balanced.after (h : l.Balanced limits) {c : Call} (hc : l.IsDue c) :
    (l.after net c).Balanced limits := by
  cases c with
  | acquire address =>
    have hacquires := l.forwarder.acquires_acquire net address
    simp only [Lending.after, Balanced]
    generalize l.forwarder.acquire net address = acquired at hacquires ⊢
    cases hacquires with
    | reused hr => exact LinkPool.Balanced.request_idle h hr
    | dialed hr => exact LinkPool.Balanced.dialed h hr
    | undialed hr => exact (LinkPool.Balanced.undialed h hr).1
    | refused hr => exact LinkPool.Balanced.request_refused h hr
  | release address link keep => exact LinkPool.Balanced.release h hc address keep
  | destroy link => exact LinkPool.Balanced.destroy h hc
  | drain => exact LinkPool.Balanced.drain h

theorem Balanced.run (h : l.Balanced limits) {calls : List Call} (hcalls : l.AllDue net calls) :
    (l.run net calls).Balanced limits := by
  induction calls generalizing l with
  | nil => exact h
  | cons c calls ih => exact ih (h.after hcalls.1) hcalls.2

/-! ## What a pool keeps to -/

/-- A pool drains from the first drain on. -/
theorem draining_after (net : Network σ) (l : Lending σ) (c : Call) :
    (l.after net c).forwarder.links.draining = (l.forwarder.links.draining || c = .drain) := by
  cases c with
  | acquire address =>
    have hacquires := l.forwarder.acquires_acquire net address
    simp only [after]
    generalize l.forwarder.acquire net address = acquired at hacquires ⊢
    cases hacquires with
    | reused hr =>
      obtain ⟨newer, older, -, -, rfl⟩ := LinkPool.takeIdle_eq_some (LinkPool.request_idle hr)
      simp
    | dialed hr | undialed hr =>
      obtain ⟨-, -, -, rfl⟩ := LinkPool.request_toDial hr
      simp [LinkPool.opened, LinkPool.notOpened, LinkPool.countDown]
    | refused hr => simp [(LinkPool.request_refused hr).2.2.2.2.1]
  | release address link keep =>
    simp only [after, Forwarder.release]
    rcases LinkPool.release_cases address link keep l.forwarder.links with hr | hr <;>
      simp [hr, LinkPool.forget, LinkPool.countDown]
  | destroy link =>
    simp [after, Forwarder.destroy, LinkPool.destroy, LinkPool.forget, LinkPool.countDown]
  | drain => simp [after, Forwarder.drain, LinkPool.drain, LinkPool.forgetMany_eq]

theorem draining_run (net : Network σ) (l : Lending σ) (calls : List Call) :
    (l.run net calls).forwarder.links.draining =
      (l.forwarder.links.draining || decide (.drain ∈ calls)) := by
  induction calls generalizing l with
  | nil => simp [run]
  | cons c calls ih =>
    change ((l.after net c).run net calls).forwarder.links.draining = _
    rw [ih, draining_after, Bool.or_assoc, ← Bool.decide_or]
    simp only [List.mem_cons, eq_comm]

/-- A link that is not lent leaves the idle links and the counts as they were. -/
theorem Balanced.unchanged_of_error (h : l.Balanced limits) {address : String} {fault : Fault}
    {f : Forwarder σ} (hf : l.forwarder.acquire net address = (.error fault, f)) :
    f.links.idle = l.forwarder.links.idle ∧ f.links.total = l.forwarder.links.total ∧
      f.links.tally.active = l.forwarder.links.tally.active := by
  have hacquires := l.forwarder.acquires_acquire net address
  rw [hf] at hacquires
  cases hacquires with
  | undialed hr =>
    obtain ⟨-, hidle, htotal, htally⟩ := LinkPool.Balanced.undialed h hr
    exact ⟨hidle, htotal, congrArg LinkTally.active htally⟩
  | refused hr =>
    obtain ⟨hidle, htotal, -⟩ := LinkPool.request_refused hr
    exact ⟨hidle, htotal, LinkPool.active_of_request_refused hr⟩

/-- Who asks for an address with an idle link is lent one, however many links there are. -/
theorem Balanced.lends_idle (h : l.Balanced limits) {address : String}
    (hidle : l.forwarder.links.idleCount address ≠ 0) :
    ∃ link, (address, link) ∈ l.forwarder.links.idle ∧
      (l.forwarder.acquire net address).1 = .ok link := by
  obtain ⟨found, hfound, haddress⟩ := List.countP_pos_iff.mp (Nat.pos_of_ne_zero hidle)
  have hnot : ¬ ∀ l' ∈ l.forwarder.links.idle, l'.1 ≠ address :=
    fun hall ↦ hall found hfound (by simpa using haddress)
  have hacquires := l.forwarder.acquires_acquire net address
  generalize l.forwarder.acquire net address = acquired at hacquires ⊢
  cases hacquires with
  | reused hr => exact ⟨_, LinkPool.mem_idle_of_request_idle hr, rfl⟩
  | dialed hr | undialed hr => exact absurd (LinkPool.request_toDial hr).2.2.1 hnot
  | refused hr =>
    obtain ⟨-, -, -, -, -, hdraining | ⟨hall, -⟩⟩ := LinkPool.request_refused hr
    · simp [h.emptied hdraining] at hfound
    · exact absurd hall hnot

theorem acquire_of_draining (net : Network σ) (address : String) {f : Forwarder σ}
    (hdraining : f.links.draining = true) :
    f.acquire net address = (.error .linksDraining, f) := by
  rw [Forwarder.acquire, LinkPool.request, if_pos hdraining]

theorem release_of_draining (net : Network σ) (address : String) (link : Link) (keep : Bool)
    {f : Forwarder σ} (hdraining : f.links.draining = true) :
    f.release net address link keep =
      { f with links := f.links.forget, network := net.close link f.network } := by
  rw [Forwarder.release, LinkPool.release, hdraining]
  simp

/-- Whatever is asked of a pool, as long as only links on loan are given back, it counts its idle links and
those on loan and no others, and no more than its limit.  Every address has no more idle links than may
be, and no link is in two places.  A request that fails changes nothing, and one for an address with an
idle link does not fail.  After a drain no link is idle or becomes so: every request is refused, and what
is given back is closed. -/
theorem stock_accounted (net : Network σ) {limits : LinkLimits} {buffers : BufferPool} {network : σ}
    {calls : List Call} (hcalls : (start limits buffers network).AllDue net calls) :
    let l := (start limits buffers network).run net calls
    let pool := l.forwarder.links
    pool.total = pool.idle.length + l.lent.length ∧ pool.total ≤ limits.maxLinks ∧
      pool.tally.active = pool.total ∧
      (∀ address, pool.idleCount address ≤ limits.idlePerAddress) ∧
      (pool.idle.map (·.2.number) ++ l.lent.map (·.number)).Nodup ∧
      (∀ address, (∀ fault f, l.forwarder.acquire net address = (.error fault, f) →
          f.links.idle = pool.idle ∧ f.links.total = pool.total ∧
            f.links.tally.active = pool.tally.active) ∧
        (pool.idleCount address ≠ 0 → ∃ link, (address, link) ∈ pool.idle ∧
          (l.forwarder.acquire net address).1 = .ok link)) ∧
      (.drain ∈ calls → pool.idle = [] ∧ ∀ address,
        l.forwarder.acquire net address = (.error .linksDraining, l.forwarder) ∧
          ∀ link keep, l.forwarder.release net address link keep =
            { l.forwarder with
              links := pool.forget, network := net.close link l.forwarder.network }) := by
  intro l pool
  have hstart : (start limits buffers network).Balanced limits := LinkPool.balanced_empty limits
  have h : l.Balanced limits := hstart.run hcalls
  refine ⟨?_, h.total_le, h.active_eq, h.idle_le, ?_,
    fun address ↦ ⟨fun _ _ ↦ h.unchanged_of_error, h.lends_idle⟩, fun hdrain ↦ ?_⟩
  · have htotal := h.total_eq
    rwa [LinkPool.stock, List.length_append, List.length_map] at htotal
  · have hnodup := h.nodup
    rwa [LinkPool.stock, List.map_append, List.map_map] at hnodup
  · have hdraining : pool.draining = true := by
      rw [draining_run, decide_eq_true hdrain, Bool.or_true]
    exact ⟨h.emptied hdraining, fun address ↦ ⟨acquire_of_draining net address hdraining,
      fun link keep ↦ release_of_draining net address link keep hdraining⟩⟩

/-- Of two links that were dialed up to a limit of two, one is idle and one on loan when the pool drains.
The idle one is closed at once, and the other one when it is given back for reuse. -/
theorem stock_accounted_drained :
    let net : Network Unit := { Network.unreachable with dial := fun _ s ↦ (some .succeeded, s) }
    let drained : List Call :=
      [.acquire "a", .acquire "b", .acquire "c", .release "a" ⟨0, "a"⟩ true, .drain]
    let returned : List Call := drained ++ [.release "b" ⟨1, "b"⟩ true]
    (start ⟨1, 2, 5000⟩ .standard ()).AllDue net returned ∧
      ((start ⟨1, 2, 5000⟩ .standard ()).run net drained).lent = [⟨1, "b"⟩] ∧
      ((start ⟨1, 2, 5000⟩ .standard ()).run net returned).forwarder.links.idle = [] ∧
      ((start ⟨1, 2, 5000⟩ .standard ()).run net returned).forwarder.links.total = 0 := by
  intro net drained returned
  have hcalls : (start ⟨1, 2, 5000⟩ .standard ()).AllDue net returned := by decide
  have hlent : ((start ⟨1, 2, 5000⟩ .standard ()).run net returned).lent = [] := by decide +kernel
  obtain ⟨htotal, -, -, -, -, -, hdrained⟩ := stock_accounted net hcalls
  have hidle := (hdrained (by decide)).1
  rw [hidle, hlent] at htotal
  exact ⟨hcalls, by decide +kernel, hidle, htotal⟩

end Lending

end ReplicaChain.Follower
