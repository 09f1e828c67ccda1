import Mathlib.Data.List.Nodup
import Mathlib.Data.List.Perm.Subperm
import ReplicaChain.Follower.LinkPool

/-!
# What the operations of a link pool do

A request either takes the newest idle link of an address, or makes room for a link that the pool has
never seen, or changes nothing but the tally.  Handing a link back adds it to the idle links or
forgets it.
-/

namespace ReplicaChain.Follower.LinkPool

variable {address : String} {link : Link} {p q : LinkPool} {fault : Fault}

theorem takeIdle_eq_some (h : p.takeIdle address = some (link, q)) :
    ∃ newer older, p.idle = newer ++ (address, link) :: older ∧ (∀ l ∈ newer, l.1 ≠ address) ∧
      q = { p with idle := newer ++ older, tally := { p.tally with reused := p.tally.reused + 1 } } := by
  unfold takeIdle at h
  split at h
  · cases h
  · rename_i key found hfound
    obtain ⟨hkey, newer, older, hidle, hnewer⟩ := List.find?_eq_some_iff_append.mp hfound
    obtain rfl : key = address := by simpa using hkey
    have hne : ∀ l ∈ newer, ¬ decide (l.1 = key) = true := fun l hl ↦ by simpa using hnewer l hl
    have herase : p.idle.eraseP (·.1 = key) = newer ++ older := by
      rw [hidle, List.eraseP_append_right _ hne, List.eraseP_cons_of_pos (by simp)]
    simp only [Option.some.injEq, Prod.mk.injEq] at h
    obtain ⟨rfl, rfl⟩ := h
    exact ⟨newer, older, hidle, fun l hl ↦ by simpa using hnewer l hl, by rw [herase]⟩

theorem takeIdle_eq_none (h : p.takeIdle address = none) : ∀ l ∈ p.idle, l.1 ≠ address := by
  unfold takeIdle at h
  split at h
  · rename_i hfind
    intro l hl
    simpa using List.find?_eq_none.mp hfind l hl
  · cases h

theorem request_idle (h : p.request address = (.idle link, q)) :
    p.takeIdle address = some (link, q) := by
  unfold request at h
  split at h
  · simp at h
  · split at h
    · simp_all
    · dsimp only at h
      split at h <;> simp at h

/-- A place to dial is given for a link with the next number, and only below the limit. -/
theorem request_toDial (h : p.request address = (.toDial link, q)) :
    link = ⟨p.nextNumber, address⟩ ∧ p.total < p.limits.maxLinks ∧ (∀ l ∈ p.idle, l.1 ≠ address) ∧
      q = { p with total := p.total + 1, nextNumber := p.nextNumber + 1 } := by
  unfold request at h
  split at h
  · simp at h
  · split at h
    · simp at h
    · rename_i hnone
      dsimp only [countUp] at h
      split at h
      · simp at h
      · rename_i hlimit
        simp only [Prod.mk.injEq, Grant.toDial.injEq] at h
        exact ⟨h.1.symm, Nat.lt_of_not_le hlimit, takeIdle_eq_none hnone, h.2.symm⟩

/-- A refused request leaves all links where they are. -/
theorem request_refused (h : p.request address = (.refused fault, q)) :
    q.idle = p.idle ∧ q.total = p.total ∧ q.nextNumber = p.nextNumber ∧ q.limits = p.limits ∧
      q.draining = p.draining ∧
      (p.draining = true ∨ (∀ l ∈ p.idle, l.1 ≠ address) ∧ p.limits.maxLinks ≤ p.total) := by
  unfold request at h
  split at h
  · rename_i hdraining
    simp only [Prod.mk.injEq] at h
    rw [← h.2]
    exact ⟨rfl, rfl, rfl, rfl, rfl, .inl hdraining⟩
  · split at h
    · simp at h
    · rename_i hnone
      dsimp only [countUp] at h
      split at h
      · rename_i hlimit
        simp only [Prod.mk.injEq] at h
        rw [← h.2]
        exact ⟨rfl, rfl, rfl, rfl, rfl, .inr ⟨takeIdle_eq_none hnone, hlimit⟩⟩
      · simp at h

theorem mem_idle_of_request_idle (h : p.request address = (.idle link, q)) :
    (address, link) ∈ p.idle := by
  obtain ⟨newer, older, hidle, -, -⟩ := takeIdle_eq_some (request_idle h)
  simp [hidle]

/-- The link that is lent is the only one that goes. -/
theorem idle_perm_of_request_idle (h : p.request address = (.idle link, q)) :
    p.idle.Perm ((address, link) :: q.idle) := by
  obtain ⟨newer, older, hidle, -, rfl⟩ := takeIdle_eq_some (request_idle h)
  rw [hidle]
  exact List.perm_middle

theorem fault_of_request_refused (h : p.request address = (.refused fault, q)) :
    fault = .linksDraining ∨ fault = .linksExhausted := by
  unfold request at h
  split at h
  · exact .inl (Grant.refused.inj (Prod.mk.inj h).1).symm
  · split at h
    · simp at h
    · dsimp only at h
      split at h
      · exact .inr (Grant.refused.inj (Prod.mk.inj h).1).symm
      · simp at h

/-- No request adds an idle link. -/
theorem idle_subset_of_request {grant : Grant} (h : p.request address = (grant, q)) :
    q.idle ⊆ p.idle := by
  cases grant with
  | idle link =>
    obtain ⟨newer, older, hidle, -, rfl⟩ := takeIdle_eq_some (request_idle h)
    intro l hl
    rw [hidle]
    simp only [List.mem_append, List.mem_cons] at hl ⊢
    tauto
  | toDial link =>
    obtain ⟨-, -, -, rfl⟩ := request_toDial h
    exact List.Subset.refl _
  | refused fault =>
    rw [(request_refused h).1]
    exact List.Subset.refl _

/-- A link that is handed back is kept or forgotten. -/
theorem release_cases (address : String) (link : Link) (keep : Bool) (p : LinkPool) :
    p.release address link keep = (true, { p with idle := (address, link) :: p.idle }) ∨
      p.release address link keep = (false, p.forget) := by
  unfold release park
  split
  · split
    · rename_i hpark
      split at hpark
      · exact .inl (by simp_all)
      · simp at hpark
    · exact .inr rfl
  · exact .inr rfl

/-! ## Pools that are never used up -/

/-- A pool that has room for one link to each of some addresses and keeps no more of them, counting the
links that it lent. -/
structure Sparing (addresses : List String) (lent : List String) (p : LinkPool) : Prop where
  not_draining : p.draining = false
  room : addresses.length ≤ p.limits.maxLinks
  nodup : (p.idle.map Prod.fst ++ lent).Nodup
  subset : ∀ address ∈ p.idle.map Prod.fst ++ lent, address ∈ addresses

variable {addresses lent lent' : List String}

/-- Some addresses may be dropped, and all others may change hands. -/
theorem Sparing.handOver (h : Sparing addresses lent p) (dropped : List String)
    (hperm : (p.idle.map Prod.fst ++ lent).Perm (q.idle.map Prod.fst ++ lent' ++ dropped))
    (hlimits : q.limits = p.limits) (hdraining : q.draining = p.draining) :
    Sparing addresses lent' q where
  not_draining := hdraining.trans h.not_draining
  room := by
    rw [hlimits]
    exact h.room
  nodup := (hperm.nodup_iff.mp h.nodup).of_append_left
  subset address ha := h.subset address (hperm.mem_iff.mpr (List.mem_append_left _ ha))

theorem Sparing.perm (h : Sparing addresses lent p) (hperm : lent.Perm lent') :
    Sparing addresses lent' p := by
  refine h.handOver [] ?_ rfl rfl
  rw [List.append_nil]
  exact hperm.append_left _

/-- Of two links to one address one is not lent while the other is. -/
theorem Sparing.nodup_lent (h : Sparing addresses lent p) : lent.Nodup :=
  h.nodup.of_append_right

theorem Sparing.request_idle (h : Sparing addresses lent p)
    (hr : p.request address = (.idle link, q)) : Sparing addresses (address :: lent) q := by
  obtain ⟨newer, older, hidle, -, rfl⟩ := takeIdle_eq_some (LinkPool.request_idle hr)
  refine h.handOver [] ?_ rfl rfl
  simp only [hidle, List.map_append, List.map_cons, List.append_nil, List.append_assoc,
    List.cons_append]
  exact List.perm_middle.symm.append_left _

theorem Sparing.request_toDial (h : Sparing addresses lent p) (ha : address ∈ addresses)
    (hl : address ∉ lent) (hr : p.request address = (.toDial link, q)) :
    Sparing addresses (address :: lent) q := by
  obtain ⟨-, -, hidle, rfl⟩ := LinkPool.request_toDial hr
  have hperm : (p.idle.map Prod.fst ++ address :: lent).Perm
      (address :: (p.idle.map Prod.fst ++ lent)) := List.perm_middle
  refine ⟨h.not_draining, h.room, hperm.nodup_iff.mpr (List.nodup_cons.mpr ⟨?_, h.nodup⟩),
    fun a ha' ↦ ?_⟩
  · simp only [List.mem_append, List.mem_map, not_or, not_exists, not_and]
    exact ⟨hidle, hl⟩
  · rcases List.mem_cons.mp (hperm.mem_iff.mp ha') with rfl | ha'
    · exact ha
    · exact h.subset a ha'

/-- No request for a link to one of the addresses is refused, unless there is one lent. -/
theorem Sparing.request_ne_refused (h : Sparing addresses lent p) (ha : address ∈ addresses)
    (hl : address ∉ lent) (htotal : p.total = (p.idle.map Prod.fst ++ lent).length) :
    p.request address ≠ (.refused fault, q) := by
  intro hr
  obtain ⟨-, -, -, -, -, hdraining | ⟨hidle, hlimit⟩⟩ := request_refused hr
  · simp [h.not_draining] at hdraining
  · have hnotMem : address ∉ p.idle.map Prod.fst ++ lent := by
      simp only [List.mem_append, List.mem_map, not_or, not_exists, not_and]
      exact ⟨hidle, hl⟩
    have hsubset : address :: (p.idle.map Prod.fst ++ lent) ⊆ addresses :=
      List.cons_subset.mpr ⟨ha, h.subset⟩
    have hlength := ((List.nodup_cons.mpr ⟨hnotMem, h.nodup⟩).subperm hsubset).length_le
    have hroom := h.room
    rw [List.length_cons, ← htotal] at hlength
    omega

theorem Sparing.opened (h : Sparing addresses lent p) : Sparing addresses lent p.opened := by
  refine h.handOver [] ?_ rfl rfl
  rw [List.append_nil]
  rfl

/-- A link that is handed back stays one of the addresses' links or is forgotten. -/
theorem Sparing.release (h : Sparing addresses (address :: lent) p) (keep : Bool) :
    Sparing addresses lent (p.release address link keep).2 := by
  rcases release_cases address link keep p with hr | hr <;> rw [hr]
  · refine h.handOver [] ?_ rfl rfl
    rw [List.append_nil]
    exact List.perm_middle
  · refine h.handOver [address] ?_ rfl rfl
    rw [List.append_assoc]
    exact (List.perm_append_singleton address lent).symm.append_left _

theorem Sparing.destroy (h : Sparing addresses (address :: lent) p) :
    Sparing addresses lent p.destroy := by
  refine h.handOver [address] ?_ rfl rfl
  rw [List.append_assoc]
  exact (List.perm_append_singleton address lent).symm.append_left _

/-! ## Pools with room -/

/-- A pool that lends, and that may dial a link to each of some addresses to which it keeps none. -/
structure HasRoom (addresses : List String) (p : LinkPool) : Prop where
  not_draining : p.draining = false
  room : p.total + addresses.countP (p.idleCount · = 0) ≤ p.limits.maxLinks

theorem idleCount_eq_zero_iff : p.idleCount address = 0 ↔ ∀ l ∈ p.idle, l.1 ≠ address := by
  simp [idleCount]

theorem HasRoom.perm {addresses' : List String} (h : HasRoom addresses p)
    (hperm : addresses.Perm addresses') : HasRoom addresses' p where
  not_draining := h.not_draining
  room := by
    rw [← hperm.countP_eq]
    exact h.room

/-- A request for a link to one of the addresses is not refused. -/
theorem HasRoom.request_ne_refused (h : HasRoom (address :: addresses) p) :
    p.request address ≠ (.refused fault, q) := by
  intro hr
  obtain ⟨-, -, -, -, -, hdraining | ⟨hidle, hlimit⟩⟩ := request_refused hr
  · simp [h.not_draining] at hdraining
  · have hroom := h.room
    rw [List.countP_cons_of_pos (by simpa using idleCount_eq_zero_iff.mpr hidle)] at hroom
    omega

/-- An idle link that is lent was none of the other addresses'. -/
theorem HasRoom.request_idle (h : HasRoom (address :: addresses) p) (ha : address ∉ addresses)
    (hr : p.request address = (.idle link, q)) : HasRoom addresses q := by
  obtain ⟨newer, older, hidle, -, rfl⟩ := takeIdle_eq_some (LinkPool.request_idle hr)
  have hothers : ∀ a ∈ addresses, idleCount a p = (newer ++ older).countP (·.1 = a) := by
    intro a ha'
    have hne : address ≠ a := fun hsame ↦ ha (hsame ▸ ha')
    simp [idleCount, hidle, hne]
  have hcount : addresses.countP (p.idleCount · = 0) ≤
      (address :: addresses).countP (p.idleCount · = 0) := by
    rw [List.countP_cons]
    exact Nat.le_add_right _ _
  refine ⟨h.not_draining, ?_⟩
  calc
    p.total + addresses.countP (fun a ↦ (newer ++ older).countP (·.1 = a) = 0)
      = p.total + addresses.countP (p.idleCount · = 0) := by
        congr 1
        exact List.countP_congr fun a ha' ↦ by rw [hothers a ha']
    _ ≤ p.limits.maxLinks := Nat.le_trans (Nat.add_le_add_left hcount _) h.room

/-- A link that is to be dialed takes the room of its address. -/
theorem HasRoom.request_toDial (h : HasRoom (address :: addresses) p)
    (hr : p.request address = (.toDial link, q)) : HasRoom addresses q := by
  obtain ⟨-, -, hidle, rfl⟩ := LinkPool.request_toDial hr
  have hroom := h.room
  rw [List.countP_cons_of_pos (by simpa using idleCount_eq_zero_iff.mpr hidle)] at hroom
  refine ⟨h.not_draining, ?_⟩
  change p.total + 1 + addresses.countP (p.idleCount · = 0) ≤ p.limits.maxLinks
  omega

theorem HasRoom.opened (h : HasRoom addresses p) : HasRoom addresses p.opened :=
  ⟨h.not_draining, h.room⟩

end ReplicaChain.Follower.LinkPool
