import Mathlib.Data.List.Nodup
import Mathlib.Data.List.Perm.Basic
import ReplicaChain.Follower.Forwarder

/-!
# Exchanges that advance together

Relaying a packet and collecting its replies are the same kind of run: a list of exchanges, one per
follower, of which a schedule advances one at a time.  What holds of the whole run follows from what
one advance does.  Addresses never change, an invariant that every advance keeps holds at the end,
and an exchange that is advanced often enough comes to its end, whatever happens to the others.
-/

namespace ReplicaChain.Follower

variable {σ St α β : Type}

/-! ## One exchange among many -/

/-- What one element counts for is told apart from what all others count for, which stays the same
when the element is replaced. -/
theorem exists_filterMap_perm (f : α → Option β) {l : List α} {i : Nat} {a : α}
    (h : l[i]? = some a) :
    ∃ others, (l.filterMap f).Perm ((f a).toList ++ others) ∧
      (∀ b, ((l.set i b).filterMap f).Perm ((f b).toList ++ others)) ∧
      ∀ c ∈ others, ∃ b ∈ l.eraseIdx i, f b = some c := by
  obtain ⟨hi, rfl⟩ := List.getElem?_eq_some_iff.mp h
  have hcons (b : α) :
      (b :: l.eraseIdx i).filterMap f = (f b).toList ++ (l.eraseIdx i).filterMap f := by
    cases hb : f b with
    | none => rw [List.filterMap_cons_none hb]; rfl
    | some c => rw [List.filterMap_cons_some hb]; rfl
  refine ⟨(l.eraseIdx i).filterMap f, ?_, fun b ↦ ?_, fun c hc ↦ List.mem_filterMap.mp hc⟩
  · rw [← hcons]
    exact (List.getElem_cons_eraseIdx_perm hi).symm.filterMap f
  · rw [← hcons]
    exact (List.set_perm_cons_eraseIdx hi b).filterMap f

/-- The same when elements count for any number of things. -/
theorem exists_flatMap_perm (f : α → List β) {l : List α} {i : Nat} {a : α} (h : l[i]? = some a) :
    ∃ others, (l.flatMap f).Perm (f a ++ others) ∧
      (∀ b, ((l.set i b).flatMap f).Perm (f b ++ others)) ∧
      ∀ j b, j ≠ i → l[j]? = some b → f b ⊆ others := by
  obtain ⟨hi, rfl⟩ := List.getElem?_eq_some_iff.mp h
  refine ⟨(l.eraseIdx i).flatMap f, ?_, fun b ↦ ?_, fun j b hj hb c hc ↦ ?_⟩
  · exact (List.getElem_cons_eraseIdx_perm hi).symm.flatMap_right f
  · exact (List.set_perm_cons_eraseIdx hi b).flatMap_right f
  · have hmem : b ∈ l.eraseIdx i := List.mem_eraseIdx_iff_getElem?.mpr ⟨j, hj, hb⟩
    exact List.mem_flatMap.mpr ⟨b, hmem, hc⟩

/-- When no two elements have the same key, no other element has the key of a given one. -/
theorem ne_of_mem_eraseIdx {g : α → β} {l : List α} {i : Nat} {a b : α} (hl : (l.map g).Nodup)
    (h : l[i]? = some a) (hb : b ∈ l.eraseIdx i) : g b ≠ g a := by
  obtain ⟨hi, rfl⟩ := List.getElem?_eq_some_iff.mp h
  have hperm := (List.getElem_cons_eraseIdx_perm hi).map g
  have hnodup := hperm.nodup_iff.mpr hl
  rw [List.map_cons, List.nodup_cons] at hnodup
  intro hsame
  exact hnodup.1 (List.mem_map.mpr ⟨b, hb, hsame⟩)

/-- Replacing an element that did not count adds what the new one counts for. -/
theorem filterMap_set_perm {f : α → Option β} {l : List α} {i : Nat} {a : α} (b : α)
    (h : l[i]? = some a) (ha : f a = none) :
    ((l.set i b).filterMap f).Perm ((f b).toList ++ l.filterMap f) := by
  obtain ⟨others, hold, hnew, -⟩ := exists_filterMap_perm f h
  rw [ha] at hold
  exact (hnew b).trans (hold.symm.append_left _)

theorem set_of_getElem?_eq {l : List α} {i : Nat} {a : α} (h : l[i]? = some a) : l.set i a = l := by
  obtain ⟨hi, rfl⟩ := List.getElem?_eq_some_iff.mp h
  exact List.set_getElem_self hi

/-- Replacing an element by one that is mapped to the same changes nothing of what is mapped. -/
theorem map_set_of_getElem?_eq {l : List α} {i : Nat} {a b : α} {g : α → β} (h : l[i]? = some a)
    (hg : g b = g a) : (l.set i b).map g = l.map g := by
  have hget : (l.map g)[i]? = some (g b) := by rw [List.getElem?_map, h, hg]; rfl
  rw [List.map_set, set_of_getElem?_eq hget]

theorem firstFault_eq_none_iff {results : List (Option Link × Option Fault)} :
    firstFault results = none ↔ ∀ r ∈ results, r.2 = none :=
  List.findSome?_eq_none_iff

/-- The fault to report is that of an exchange. -/
theorem exists_of_firstFault {l : List α} {result : α → Option Link × Option Fault} {fault : Fault}
    (h : firstFault (l.map result) = some fault) : ∃ a ∈ l, (result a).2 = some fault := by
  obtain ⟨r, hr, hfault⟩ := List.exists_of_findSome?_eq_some h
  obtain ⟨a, ha, rfl⟩ := List.mem_map.mp hr
  exact ⟨a, ha, hfault⟩

/-- When every exchange ended with a link and without a fault, there is no fault to report and every
slot has a link. -/
theorem results_of_linked {l : List α} {result : α → Option Link × Option Fault}
    (h : ∀ a ∈ l, ∃ link, result a = (some link, none)) :
    firstFault (l.map result) = none ∧ ∀ slot ∈ (l.map result).map Prod.fst, slot.isSome := by
  constructor
  · rw [firstFault_eq_none_iff]
    intro r hr
    obtain ⟨a, ha, rfl⟩ := List.mem_map.mp hr
    obtain ⟨link, hlink⟩ := h a ha
    rw [hlink]
  · intro slot hslot
    simp only [List.map_map, List.mem_map] at hslot
    obtain ⟨a, ha, rfl⟩ := hslot
    obtain ⟨link, hlink⟩ := h a ha
    rw [Function.comp_apply, hlink]
    rfl

theorem exists_map_some {l : List (Option α)} (h : ∀ a ∈ l, a.isSome) :
    ∃ l' : List α, l = l'.map some := by
  induction l with
  | nil => exact ⟨[], rfl⟩
  | cons a l ih =>
    obtain ⟨b, rfl⟩ := Option.isSome_iff_exists.mp (h a (by simp))
    obtain ⟨l', rfl⟩ := ih fun a ha ↦ h a (List.mem_cons_of_mem _ ha)
    exact ⟨b :: l', rfl⟩

def stepAt (advance : String → St → Forwarder σ → St × Forwarder σ)
    (s : List (String × St) × Forwarder σ) (i : Nat) : List (String × St) × Forwarder σ :=
  match s.1[i]? with
  | none => s
  | some (address, stage) =>
    let advanced := advance address stage s.2
    (s.1.set i (address, advanced.1), advanced.2)

/-- Advances exchanges in the order of a schedule. -/
def runAll (advance : String → St → Forwarder σ → St × Forwarder σ) (schedule : List Nat)
    (s : List (String × St) × Forwarder σ) : List (String × St) × Forwarder σ :=
  schedule.foldl (stepAt advance) s

section Runs

variable {advance : String → St → Forwarder σ → St × Forwarder σ}

/-- What every advance keeps holds after the whole run. -/
theorem runAll_induction {P : List (String × St) → Forwarder σ → Prop}
    (hstep : ∀ l f i address stage, l[i]? = some (address, stage) → P l f →
      P (l.set i (address, (advance address stage f).1)) (advance address stage f).2)
    (schedule : List Nat) {s : List (String × St) × Forwarder σ} (hs : P s.1 s.2) :
    P (runAll advance schedule s).1 (runAll advance schedule s).2 := by
  induction schedule generalizing s with
  | nil => exact hs
  | cons i schedule ih =>
    apply ih
    unfold stepAt
    split
    · exact hs
    · rename_i address stage hi
      exact hstep _ _ i address stage hi hs

/-- An advance may rely on the addresses of all exchanges, which never change. -/
theorem runAll_induction_addresses {P : List (String × St) → Forwarder σ → Prop}
    {s : List (String × St) × Forwarder σ}
    (hstep : ∀ l f i address stage, l.map Prod.fst = s.1.map Prod.fst →
      l[i]? = some (address, stage) → P l f →
      P (l.set i (address, (advance address stage f).1)) (advance address stage f).2)
    (schedule : List Nat) (hs : P s.1 s.2) :
    P (runAll advance schedule s).1 (runAll advance schedule s).2 := by
  refine (runAll_induction (P := fun l f ↦ l.map Prod.fst = s.1.map Prod.fst ∧ P l f)
    (fun l f i address stage hi ⟨hl, h⟩ ↦ ⟨?_, hstep l f i address stage hl hi h⟩) schedule
    ⟨rfl, hs⟩).2
  refine Eq.trans ?_ hl
  exact map_set_of_getElem?_eq hi rfl

/-- What every advance keeps of the exchange that advances holds of all exchanges after the whole run. -/
theorem forall_mem_runAll {P : String → St → Prop}
    (hstep : ∀ address stage f, P address stage → P address (advance address stage f).1)
    (schedule : List Nat) {s : List (String × St) × Forwarder σ} (hs : ∀ r ∈ s.1, P r.1 r.2) :
    ∀ r ∈ (runAll advance schedule s).1, P r.1 r.2 := by
  refine runAll_induction (P := fun l _ ↦ ∀ r ∈ l, P r.1 r.2)
    (fun l f i address stage hi hl r hr ↦ ?_) schedule hs
  rcases List.mem_or_eq_of_mem_set hr with hr | rfl
  · exact hl r hr
  · exact hstep address stage f (hl _ (List.mem_of_getElem? hi))

@[simp]
theorem runAll_nil (schedule : List Nat) (f : Forwarder σ) :
    runAll advance schedule ([], f) = ([], f) := by
  induction schedule with
  | nil => rfl
  | cons i schedule ih => exact ih

/-- What no advance changes of an exchange stays as it was. -/
theorem map_runAll {g : String × St → β}
    (hg : ∀ address stage f, g (address, (advance address stage f).1) = g (address, stage))
    (schedule : List Nat) (s : List (String × St) × Forwarder σ) :
    (runAll advance schedule s).1.map g = s.1.map g := by
  refine runAll_induction (P := fun l _ ↦ l.map g = s.1.map g)
    (fun l f i address stage hi h ↦ ?_) schedule rfl
  exact (map_set_of_getElem?_eq hi (hg address stage f)).trans h

theorem map_fst_runAll (schedule : List Nat) (s : List (String × St) × Forwarder σ) :
    (runAll advance schedule s).1.map Prod.fst = s.1.map Prod.fst :=
  map_runAll (fun _ _ _ ↦ rfl) schedule s

/-- An exchange has come at least as far as the schedule advanced it. -/
theorem rank_runAll {rank : St → Nat} {goal : Nat}
    (hrank : ∀ address stage f, min goal (rank stage + 1) ≤ rank (advance address stage f).1)
    (schedule : List Nat) {s : List (String × St) × Forwarder σ} {i : Nat} {r : String × St}
    (hr : (runAll advance schedule s).1[i]? = some r) :
    ∃ r₀, s.1[i]? = some r₀ ∧ min goal (schedule.count i + rank r₀.2) ≤ rank r.2 := by
  induction schedule generalizing s with
  | nil => exact ⟨r, hr, by simp only [List.count_nil]; omega⟩
  | cons j schedule ih =>
    obtain ⟨r₁, hr₁, hle⟩ := ih hr
    unfold stepAt at hr₁
    split at hr₁
    · rename_i hj
      have hij : j ≠ i := by rintro rfl; simp [hj] at hr₁
      exact ⟨r₁, hr₁, by rwa [List.count_cons_of_ne hij]⟩
    · rename_i address stage hj
      by_cases hij : j = i
      · subst hij
        obtain ⟨hlt, -⟩ := List.getElem?_eq_some_iff.mp hj
        rw [List.getElem?_set_self hlt, Option.some.injEq] at hr₁
        subst hr₁
        have := hrank address stage s.2
        refine ⟨(address, stage), hj, ?_⟩
        rw [List.count_cons_self]
        simp only at hle ⊢
        omega
      · rw [List.getElem?_set_ne hij] at hr₁
        exact ⟨r₁, hr₁, by rwa [List.count_cons_of_ne hij]⟩

/-- When every exchange is advanced often enough, all of them come to the end. -/
theorem rank_of_mem_runAll {rank : St → Nat} {goal : Nat}
    (hrank : ∀ address stage f, min goal (rank stage + 1) ≤ rank (advance address stage f).1)
    {schedule : List Nat} {s : List (String × St) × Forwarder σ}
    (hcount : ∀ i < s.1.length, goal ≤ schedule.count i) {r : String × St}
    (hr : r ∈ (runAll advance schedule s).1) : goal ≤ rank r.2 := by
  obtain ⟨i, hi⟩ := List.mem_iff_getElem?.mp hr
  obtain ⟨r₀, hr₀, hle⟩ := rank_runAll hrank schedule hi
  have := hcount i (List.getElem?_eq_some_iff.mp hr₀).1
  omega

end Runs

/-! ## Relays -/

/-- How many steps an exchange has behind it at least. -/
def SendStage.rank : SendStage → Nat
  | .waiting => 0
  | .dialing _ => 1
  | .connected _ => 2
  | .settled _ _ => 3

/-- Nothing has failed in a relay. -/
def SendStage.Sound : SendStage → Prop
  | .settled (some _) (some _) | .settled none _ => False
  | _ => True

theorem SendStage.Sound.exists_link {link : Option Link} {fault : Option Fault}
    (h : (settled link fault).Sound) :
    ∃ l, settled link fault = .settled (some l) none := by
  cases link <;> cases fault <;> first | exact ⟨_, rfl⟩ | exact h.elim

/-- What one advance of a relay can do. -/
inductive Sending.Advances (net : Network σ) (frame : ByteArray) (address : String) :
    SendStage → Forwarder σ → SendStage → Forwarder σ → Prop
  | refused {f : Forwarder σ} {fault : Fault} {links : LinkPool}
      (hr : f.links.request address = (.refused fault, links)) :
      Advances net frame address .waiting f (.settled none (some fault)) { f with links }
  | idle {f : Forwarder σ} {link : Link} {links : LinkPool}
      (hr : f.links.request address = (.idle link, links)) :
      Advances net frame address .waiting f (.connected link) { f with links }
  | dialing {f : Forwarder σ} {link : Link} {links : LinkPool} {network : σ}
      (hr : f.links.request address = (.toDial link, links))
      (hd : net.dial link f.network = (none, network)) :
      Advances net frame address .waiting f (.dialing link) { f with links, network }
  | dialed {f : Forwarder σ} {link : Link} {links : LinkPool} {network : σ}
      (hr : f.links.request address = (.toDial link, links))
      (hd : net.dial link f.network = (some .succeeded, network)) :
      Advances net frame address .waiting f (.connected link)
        { f with links := links.opened, network }
  | undialed {f : Forwarder σ} {link : Link} {links : LinkPool} {network : σ} {a : Attempt}
      (fault : Fault) (hr : f.links.request address = (.toDial link, links))
      (hd : net.dial link f.network = (some a, network)) (ha : a ≠ .succeeded) :
      Advances net frame address .waiting f (.settled none (some fault))
        { f with links := links.notOpened, network }
  | awaited {f : Forwarder σ} {link : Link} {network : σ}
      (hd : net.await link f.network = (.succeeded, network)) :
      Advances net frame address (.dialing link) f (.connected link)
        { f with links := f.links.opened, network }
  | unawaited {f : Forwarder σ} {link : Link} {network : σ} {a : Attempt} (fault : Fault)
      (hd : net.await link f.network = (a, network)) (ha : a ≠ .succeeded) :
      Advances net frame address (.dialing link) f (.settled none (some fault))
        { f with links := f.links.notOpened, network }
  | written {f : Forwarder σ} {link : Link} {network : σ}
      (hw : net.write link frame f.network = (.ok (), network)) :
      Advances net frame address (.connected link) f (.settled (some link) none)
        { f with network, relays := f.relays + 1 }
  | unwritten {f : Forwarder σ} {link : Link} {network : σ} {fault : IoFault}
      (hw : net.write link frame f.network = (.error fault, network)) :
      Advances net frame address (.connected link) f (.settled (some link) (some (.io fault)))
        { f with network, relays := f.relays + 1 }
  | settled {f : Forwarder σ} {link : Option Link} {fault : Option Fault} :
      Advances net frame address (.settled link fault) f (.settled link fault) f

theorem Sending.advances_advance (net : Network σ) (frame : ByteArray) (address : String)
    (stage : SendStage) (f : Forwarder σ) :
    Advances net frame address stage f (advance net frame address stage f).1
      (advance net frame address stage f).2 := by
  cases stage with
  | waiting =>
    rcases hr : f.links.request address with ⟨link | link | fault, links⟩
    · simp only [advance, hr]
      exact .idle hr
    · rcases hd : net.dial link f.network with ⟨_ | a, network⟩
      · simp only [advance, hr, hd]
        exact .dialing hr hd
      · simp only [advance, hr, hd]
        cases a with
        | succeeded => exact .dialed hr hd
        | failed fault => exact .undialed _ hr hd (by simp)
        | expired => exact .undialed _ hr hd (by simp)
    · simp only [advance, hr]
      exact .refused hr
  | dialing link =>
    rcases hd : net.await link f.network with ⟨a, network⟩
    simp only [advance, Forwarder.awaitDial, hd]
    cases a with
    | succeeded => exact .awaited hd
    | failed fault => exact .unawaited _ hd (by simp)
    | expired => exact .unawaited _ hd (by simp)
  | connected link =>
    rcases hw : net.write link frame f.network with ⟨fault | _, network⟩
    · simp only [advance, hw]
      exact .unwritten hw
    · simp only [advance, hw]
      exact .written hw
  | settled link fault => exact .settled

theorem rank_sending_advance (net : Network σ) (frame : ByteArray) (address : String)
    (stage : SendStage) (f : Forwarder σ) :
    min 3 (stage.rank + 1) ≤ (Sending.advance net frame address stage f).1.rank := by
  have h := Sending.advances_advance net frame address stage f
  generalize Sending.advance net frame address stage f = advanced at h ⊢
  obtain ⟨stage', f'⟩ := advanced
  cases h <;> simp [SendStage.rank]

theorem count_rounds {n i : Nat} (hi : i < n) : (Sending.rounds n).count i = 3 := by
  have hone : (List.range n).count i = 1 := by
    rw [List.nodup_range.count, if_pos (List.mem_range.mpr hi)]
  simp [Sending.rounds, hone]

/-- A relay in an array and one in a list advance alike. -/
theorem stepAt_toList_relays (net : Network σ) (frame : ByteArray) (s : Sending σ) (i : Nat) :
    stepAt (Sending.advance net frame) (s.relays.toList, s.forwarder) i =
      ((Sending.step net frame s i).relays.toList, (Sending.step net frame s i).forwarder) := by
  simp only [Sending.step, stepAt, Array.getElem?_toList]
  rcases s.relays[i]? with _ | ⟨address, stage⟩
  · rfl
  · simp

theorem toList_foldl_sending_step (net : Network σ) (frame : ByteArray) (schedule : List Nat)
    (s : Sending σ) :
    ((schedule.foldl (Sending.step net frame) s).relays.toList,
        (schedule.foldl (Sending.step net frame) s).forwarder) =
      runAll (Sending.advance net frame) schedule (s.relays.toList, s.forwarder) := by
  symm
  apply List.foldl_hom (fun s : Sending σ ↦ (s.relays.toList, s.forwarder))
  intro s i
  exact stepAt_toList_relays net frame s i

namespace Forwarder

/-- The relays of a packet after all of them came to their end. -/
def relayed (net : Network σ) (schedule : List Nat) (frame : ByteArray) (followers : List String)
    (f : Forwarder σ) : List (String × SendStage) × Forwarder σ :=
  runAll (Sending.advance net frame) (schedule ++ Sending.rounds followers.length)
    (followers.map (·, .waiting), f)

theorem send_eq_relayed (net : Network σ) (schedule : List Nat) (frame : ByteArray)
    (followers : List String) (f : Forwarder σ) :
    f.send net schedule frame followers =
      ((f.relayed net schedule frame followers).1.map (Sending.result ·.2),
        (f.relayed net schedule frame followers).2) := by
  have h := toList_foldl_sending_step net frame (schedule ++ Sending.rounds followers.length)
    (Sending.start followers f)
  rw [show (Sending.start followers f).relays.toList = followers.map (·, .waiting) from
    List.toList_toArray] at h
  rw [relayed, ← show (Sending.start followers f).forwarder = f from rfl, ← h]
  rfl

/-- The relays of a packet are those to its followers. -/
theorem map_fst_waiting (followers : List String) :
    (followers.map (·, SendStage.waiting)).map Prod.fst = followers := by
  rw [List.map_map]
  exact List.map_id followers

theorem map_fst_relayed (net : Network σ) (schedule : List Nat) (frame : ByteArray)
    (followers : List String) (f : Forwarder σ) :
    (f.relayed net schedule frame followers).1.map Prod.fst = followers := by
  rw [relayed, map_fst_runAll, map_fst_waiting]

theorem length_relayed (net : Network σ) (schedule : List Nat) (frame : ByteArray)
    (followers : List String) (f : Forwarder σ) :
    (f.relayed net schedule frame followers).1.length = followers.length := by
  have h := congrArg List.length (map_fst_relayed net schedule frame followers f)
  rwa [List.length_map] at h

/-- No relay is left half way. -/
theorem settled_of_mem_relayed {net : Network σ} {schedule : List Nat} {frame : ByteArray}
    {followers : List String} {f : Forwarder σ} {r : String × SendStage}
    (hr : r ∈ (f.relayed net schedule frame followers).1) :
    ∃ link fault, r.2 = .settled link fault := by
  have hcount : ∀ i < (followers.map fun a ↦ (a, SendStage.waiting)).length,
      3 ≤ (schedule ++ Sending.rounds followers.length).count i := by
    intro i hi
    rw [List.length_map] at hi
    rw [List.count_append, count_rounds hi]
    omega
  have h := rank_of_mem_runAll (rank_sending_advance net frame) hcount hr
  obtain ⟨address, stage⟩ := r
  cases stage with
  | settled link fault => exact ⟨link, fault, rfl⟩
  | waiting | dialing | connected => simp [SendStage.rank] at h

end Forwarder

/-! ## Replies -/

/-- The link of an exchange, which stays the same while the reply is collected. -/
def ReceiveStage.link : ReceiveStage → Option Link
  | .pending link => link
  | .settled link _ => link

def ReceiveStage.Sound : ReceiveStage → Prop
  | .pending (some _) | .settled (some _) none => True
  | _ => False

theorem ReceiveStage.Sound.exists_link {link : Option Link} {fault : Option Fault}
    (h : (settled link fault).Sound) :
    ∃ l, settled link fault = .settled (some l) none := by
  cases link <;> cases fault <;> first | exact ⟨_, rfl⟩ | exact h.elim

theorem link_receiving_advance (net : Network σ) (requestId : Int64) (address : String)
    (stage : ReceiveStage) (f : Forwarder σ) :
    (Receiving.advance net requestId address stage f).1.link = stage.link := by
  rcases stage with (_ | link) | _ <;> rfl

def ReceiveStage.rank : ReceiveStage → Nat
  | .pending _ => 0
  | .settled _ _ => 1

theorem rank_receiving_advance (net : Network σ) (requestId : Int64) (address : String)
    (stage : ReceiveStage) (f : Forwarder σ) :
    min 1 (stage.rank + 1) ≤ (Receiving.advance net requestId address stage f).1.rank := by
  rcases stage with (_ | link) | _ <;> exact Nat.le_refl 1

/-- A reply in an array and one in a list advance alike. -/
theorem stepAt_toList_replies (net : Network σ) (requestId : Int64) (s : Receiving σ) (i : Nat) :
    stepAt (Receiving.advance net requestId) (s.replies.toList, s.forwarder) i =
      ((Receiving.step net requestId s i).replies.toList,
        (Receiving.step net requestId s i).forwarder) := by
  simp only [Receiving.step, stepAt, Array.getElem?_toList]
  rcases s.replies[i]? with _ | ⟨address, stage⟩
  · rfl
  · simp

theorem toList_foldl_receiving_step (net : Network σ) (requestId : Int64) (schedule : List Nat)
    (s : Receiving σ) :
    ((schedule.foldl (Receiving.step net requestId) s).replies.toList,
        (schedule.foldl (Receiving.step net requestId) s).forwarder) =
      runAll (Receiving.advance net requestId) schedule (s.replies.toList, s.forwarder) := by
  symm
  apply List.foldl_hom (fun s : Receiving σ ↦ (s.replies.toList, s.forwarder))
  intro s i
  exact stepAt_toList_replies net requestId s i

namespace Forwarder

/-- The replies to a packet before any of them is collected. -/
def pending (followers : List String) (slots : List (Option Link)) :
    List (String × ReceiveStage) :=
  (followers.zip slots).map fun (address, link) ↦ (address, .pending link)

def collected (net : Network σ) (schedule : List Nat) (requestId : Int64)
    (followers : List String) (slots : List (Option Link)) (f : Forwarder σ) :
    List (String × ReceiveStage) × Forwarder σ :=
  runAll (Receiving.advance net requestId)
    (schedule ++ List.range (pending followers slots).length) (pending followers slots, f)

theorem receive_eq_collected (net : Network σ) (schedule : List Nat) (requestId : Int64)
    (followers : List String) (slots : List (Option Link)) (f : Forwarder σ) :
    f.receive net schedule requestId followers slots =
      ((f.collected net schedule requestId followers slots).1.map (Receiving.result ·.2),
        (f.collected net schedule requestId followers slots).2) := by
  have h := toList_foldl_receiving_step net requestId
    (schedule ++ List.range (pending followers slots).length) ⟨(pending followers slots).toArray, f⟩
  rw [List.toList_toArray] at h
  rw [collected, ← h]
  rfl

theorem map_fst_collected (net : Network σ) (schedule : List Nat) (requestId : Int64)
    {followers : List String} {slots : List (Option Link)} (f : Forwarder σ)
    (hslots : followers.length ≤ slots.length) :
    (f.collected net schedule requestId followers slots).1.map Prod.fst = followers := by
  rw [collected, map_fst_runAll]
  simp only [pending, List.map_map]
  exact List.map_fst_zip hslots

/-- A reply is collected from the link on which the frame was sent. -/
theorem map_link_collected (net : Network σ) (schedule : List Nat) (requestId : Int64)
    {followers : List String} {slots : List (Option Link)} (f : Forwarder σ)
    (hslots : slots.length ≤ followers.length) :
    (f.collected net schedule requestId followers slots).1.map (fun r ↦ r.2.link) = slots := by
  rw [collected, map_runAll fun address stage f ↦ link_receiving_advance net requestId address stage f]
  simp only [pending, List.map_map]
  exact List.map_snd_zip hslots

/-- Every reply is collected. -/
theorem settled_of_mem_collected {net : Network σ} {schedule : List Nat} {requestId : Int64}
    {followers : List String} {slots : List (Option Link)} {f : Forwarder σ}
    {r : String × ReceiveStage}
    (hr : r ∈ (f.collected net schedule requestId followers slots).1) :
    ∃ link fault, r.2 = .settled link fault := by
  have hcount : ∀ i < (pending followers slots).length,
      1 ≤ (schedule ++ List.range (pending followers slots).length).count i := by
    intro i hi
    rw [List.count_append]
    have := List.count_pos_iff.mpr (List.mem_range.mpr hi)
    omega
  have h := rank_of_mem_runAll (rank_receiving_advance net requestId) hcount hr
  obtain ⟨address, stage⟩ := r
  cases stage with
  | settled link fault => exact ⟨link, fault, rfl⟩
  | pending link => simp [ReceiveStage.rank] at h

/-- A follower without a link is reported as such, and nothing else is read for it. -/
theorem fault_of_mem_collected {net : Network σ} {schedule : List Nat} {requestId : Int64}
    {followers : List String} {slots : List (Option Link)} {f : Forwarder σ}
    {r : String × ReceiveStage} {fault : Option Fault}
    (hr : r ∈ (f.collected net schedule requestId followers slots).1)
    (hunlinked : r.2 = .settled none fault) : fault = some (.unlinked r.1) := by
  let Unlinked (address : String) (stage : ReceiveStage) : Prop :=
    ∀ fault, stage = .settled none fault → fault = some (.unlinked address)
  refine forall_mem_runAll (P := Unlinked) (fun address stage f h fault hsettled ↦ ?_) _ ?_ r hr fault
    hunlinked
  · rcases stage with (_ | link) | ⟨link, fault'⟩
    · exact (ReceiveStage.settled.inj hsettled).2.symm
    · cases hsettled
    · exact h fault hsettled
  · intro r hr fault hsettled
    obtain ⟨slot, -, rfl⟩ := List.mem_map.mp hr
    cases hsettled

/-- When nothing failed, every follower had a link. -/
theorem isSome_of_collected {net : Network σ} {schedule : List Nat} {requestId : Int64}
    {followers : List String} {slots : List (Option Link)} {f : Forwarder σ}
    (hslots : slots.length ≤ followers.length)
    (hnone : firstFault ((f.collected net schedule requestId followers slots).1.map
      (Receiving.result ·.2)) = none) : ∀ slot ∈ slots, slot.isSome := by
  intro slot hslot
  rw [← map_link_collected net schedule requestId f hslots] at hslot
  obtain ⟨r, hr, rfl⟩ := List.mem_map.mp hslot
  obtain ⟨link, fault, hsettled⟩ := settled_of_mem_collected hr
  have hfault := firstFault_eq_none_iff.mp hnone _ (List.mem_map_of_mem hr)
  rw [hsettled] at hfault ⊢
  obtain rfl : fault = none := hfault
  cases link with
  | none => exact absurd (fault_of_mem_collected hr hsettled) (by simp)
  | some link => rfl

end Forwarder

end ReplicaChain.Follower
