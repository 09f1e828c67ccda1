import ReplicaChain.Proofs.Cluster.Courses
import ReplicaChain.Proofs.Cluster.Refinement
import ReplicaChain.Proofs.Extent.Overlay

/-!
# Writes of several clients

A node applies the packets of several clients in the order in which their relays end, and each follower in
the order in which it reads them, and nothing makes these orders the same.  Two writes that are under way
together may therefore be done in either order, and when they put different bytes in one place the storages
differ afterwards.  When all writes that are under way together agree the order does not matter, and the
extents of all storages are the same once every write was answered with success.
-/

namespace ReplicaChain.Cluster

open Extent (Overlaid Written bytesOf)
open Follower (Forwarder SendStage Sending stepAt)
open Handling (Act Stage applied operationOf)
open Wire (Packet)

variable {ω τ : Type}

/-! ## Failures -/

/-- A packet that will not be answered with success, or is about to be answered with an error. -/
def Task.Failed (t : Task) : Prop :=
  match t.stage with
  | .leaving _ => t.request.packet.header.result ≠ .ok
  | stage => relayFailed stage = true

namespace Group

variable {env : Environment ω (World ω τ)} {g g' : Group ω τ} {m : Move ω τ} {moves : List (Move ω τ)}

/-- A packet was answered with an error or will be. -/
def Failing (g : Group ω τ) : Prop :=
  (∃ a ∈ g.answers, a.2.header.result ≠ .ok) ∨
    ∃ (client : Nat) (t : Task), g.clients[client]? = some (some t) ∧ t.Failed

theorem relayFailed_stepAt {net : Network (World ω τ)} {frame : ByteArray}
    {relays : List (String × SendStage)} (f : Forwarder (World ω τ)) (i : Nat)
    (h : relayFailed (.relaying relays) = true) :
    relayFailed (.relaying (stepAt (Sending.advance net frame) (relays, f) i).1) = true := by
  rw [relayFailed_iff] at h ⊢
  obtain ⟨r, hr, link, fault, hsettled⟩ := h
  refine ⟨r, ?_, link, fault, hsettled⟩
  obtain ⟨j, hj⟩ := List.mem_iff_getElem?.mp hr
  rw [stepAt]
  split
  · exact hr
  · rename_i address stage hi
    by_cases hij : i = j
    · -- A relay that has ended stays as it is.
      subst hij
      obtain rfl := Option.some.inj (hj.symm.trans hi)
      obtain rfl : stage = .settled link (some fault) := hsettled
      exact List.mem_of_getElem? (List.getElem?_set_self (List.getElem?_eq_some_iff.mp hi).1)
    · exact List.mem_of_getElem? ((List.getElem?_set_ne hij).trans hj)

/-- What one client's packet comes to is a failure if the packet had failed. -/
theorem Failing.of_set {client : Nat} {t : Task} {o : Option Task} (h : g.Failing)
    (ht : g.clients[client]? = some (some t)) (hclients : g'.clients = g.clients.set client o)
    (hanswers : g.answers ⊆ g'.answers) (hfailed : t.Failed → g'.Failing) : g'.Failing := by
  rcases h with ⟨a, ha, hne⟩ | ⟨i, u, hu, hfailing⟩
  · exact .inl ⟨a, hanswers ha, hne⟩
  · by_cases hi : i = client
    · subst hi
      obtain rfl : t = u := by simpa [ht] using hu
      exact hfailed hfailing
    · refine .inr ⟨i, u, ?_, hfailing⟩
      rw [hclients, List.getElem?_set_ne (Ne.symm hi)]
      exact hu

/-- Failures last. -/
theorem Failing.step (h : g.Failing) (hs : g.step env m = some g') : g'.Failing := by
  cases m with
  | begins client p =>
    obtain ⟨hidle, followers, buffers, -, -, -, -, rfl⟩ := step_begins hs
    rcases h with hanswer | ⟨i, u, hu, hfailed⟩
    · exact .inl hanswer
    · have hi : i ≠ client := by
        rintro rfl
        simp [hidle] at hu
      exact .inr ⟨i, u, (List.getElem?_set_ne (Ne.symm hi)).trans hu, hfailed⟩
  | acts client a =>
    obtain ⟨t, s, ht, -, hact, rfl⟩ := step_acts hs
    have hlength := (List.getElem?_eq_some_iff.mp ht).1
    refine h.of_set ht rfl (List.Subset.refl _) fun hfailed ↦ .inr ⟨client, _,
      List.getElem?_set_self hlength, ?_⟩
    cases hstage : t.stage with
    | relaying relays =>
      simp only [Task.Failed, hstage] at hfailed
      rw [hstage] at hact
      cases a with
      | exchange i =>
        obtain rfl := Option.some.inj hact
        exact relayFailed_stepAt _ i hfailed
      | proceed =>
        simp only [Handling.act] at hact
        split at hact
        · obtain rfl := Option.some.inj hact
          obtain ⟨r, hr, link, fault, hsettled⟩ := relayFailed_iff.mp hfailed
          obtain ⟨hleaving, hresult⟩ := Handling.sent_of_fault env (g.handling t)
            ⟨r, hr, by simp [hsettled, Sending.result]⟩
          simpa only [Task.Failed, hleaving] using hresult
        · cases hact
    | collecting replies =>
      simp only [Task.Failed, hstage, relayFailed] at hfailed
      cases hfailed
    | leaving ok =>
      rw [hstage] at hact
      cases hact
  | leaves client =>
    obtain ⟨t, ok, ht, hstage, rfl⟩ := step_leaves hs
    refine h.of_set ht rfl (List.subset_cons_self _ _) fun hfailed ↦ .inl ⟨_, List.mem_cons_self, ?_⟩
    simpa only [Task.Failed, hstage] using hfailed
  | answers number turn =>
    obtain rfl := Option.some.inj hs
    exact h

theorem Failing.run (h : g.Failing) (hrun : run env moves g = some g') : g'.Failing := by
  induction moves generalizing g with
  | nil =>
    obtain rfl := Option.some.inj hrun
    exact h
  | cons m moves ih =>
    obtain ⟨g₁, hg₁, hrest⟩ := Option.bind_eq_some_iff.mp hrun
    exact ih (h.step hg₁) hrest

/-- If nothing has failed at the end of a run nothing had failed before. -/
theorem along_not_failing {P : Group ω τ → Move ω τ → Group ω τ → Prop}
    (hrun : run env moves g = some g') (h : ¬ g'.Failing) (halong : Along env P moves g) :
    Along env (fun g m g' ↦ P g m g' ∧ ¬ g.Failing ∧ ¬ g'.Failing) moves g := by
  induction moves generalizing g with
  | nil => trivial
  | cons m moves ih =>
    obtain ⟨g₁, hg₁, hrest⟩ := Option.bind_eq_some_iff.mp hrun
    intro g₂ hg₂
    obtain rfl := Option.some.inj (hg₁.symm.trans hg₂)
    obtain ⟨hP, halong'⟩ := halong g₁ hg₁
    have hfine : ¬ g₁.Failing := fun hfailing ↦ h (hfailing.run hrest)
    exact ⟨⟨hP, fun hfailing ↦ hfine (hfailing.step hg₁), hfine⟩, ih hrest halong'⟩

end Group

/-! ## Packets that agree -/

def writtenBy (partition extent : UInt64) (p : Packet) : Option Written :=
  (operationOf p).toOption.bind (·.writtenTo partition extent)

/-- Two packets put the same byte in every place that both write. -/
def Compatible (p q : Packet) : Prop :=
  let x := p.header
  ∀ w ∈ writtenBy x.partition x.extent p, ∀ w' ∈ writtenBy x.partition x.extent q, w.Agrees w'

instance (p q : Packet) : Decidable (Compatible p q) :=
  inferInstanceAs (Decidable (∀ w ∈ writtenBy p.header.partition p.header.extent p,
    ∀ w' ∈ writtenBy p.header.partition p.header.extent q, w.Agrees w'))

variable {partition extent : UInt64} {p q : Packet} {s : Extent.Store}

/-- A packet that writes asks for one operation. -/
theorem operationOf_of_write (h : p.header.opcode = .write) :
    (∃ fault, operationOf p = .error fault) ∨ operationOf p =
      .ok (.write p.header.partition p.header.extent p.header.offset p.payload) := by
  unfold operationOf
  simp only [h]
  cases p.verifyChecksum with
  | error fault => exact .inl ⟨fault, rfl⟩
  | ok => exact .inr rfl

theorem header_of_writtenBy {w : Written} (hp : p.header.opcode = .write)
    (hw : writtenBy partition extent p = some w) :
    p.header.partition = partition ∧ p.header.extent = extent := by
  rcases operationOf_of_write hp with ⟨fault, hop⟩ | hop
  · simp [writtenBy, hop, Except.toOption] at hw
  · simp only [writtenBy, hop, Except.toOption, Option.bind_some, Extent.Operation.writtenTo] at hw
    split at hw
    · assumption
    · cases hw

theorem Compatible.agrees (h : Compatible p q) (hp : p.header.opcode = .write) {w w' : Written}
    (hw : writtenBy partition extent p = some w) (hw' : writtenBy partition extent q = some w') :
    w.Agrees w' := by
  obtain ⟨rfl, rfl⟩ := header_of_writtenBy hp hw
  exact h w hw w' hw'

theorem Compatible.symm (h : Compatible p q) (hp : p.header.opcode = .write) : Compatible q p :=
  fun _ hw _ hw' ↦ (h.agrees hp hw' hw).symm

/-- A packet that writes and is not refused writes over the bytes of its extent. -/
theorem bytesOf_applied_of_ok (hp : p.header.opcode = .write)
    (hok : (applied Extent.Store.engine p s).1.header.result = .ok) (partition extent : UInt64) :
    let s' := (applied Extent.Store.engine p s).2
    (s'.extentAt partition extent).map Extent.State.deleted =
        (s.extentAt partition extent).map Extent.State.deleted ∧
      bytesOf (s'.extentAt partition extent) = (writtenBy partition extent p).elim
        (bytesOf (s.extentAt partition extent)) (Written.over (bytesOf (s.extentAt partition extent))) := by
  rcases operationOf_of_write hp with ⟨fault, hop⟩ | hop
  · simp only [applied, Handling.performed, hop] at hok
    exact absurd hok (Wire.Packet.faultCode_ne_ok _ _ _)
  · rcases Extent.Store.engine_cases
      (.write p.header.partition p.header.extent p.header.offset p.payload) s with
      ⟨fault, hengine⟩ | ⟨a, s', hengine, heffect⟩
    · simp only [applied, Handling.performed, hop, hengine, Except.mapError] at hok
      exact absurd hok (Wire.Packet.faultCode_ne_ok _ _ _)
    · simp only [applied, Handling.performed, hop, hengine, Except.mapError, writtenBy,
        Except.toOption, Option.bind_some]
      exact heffect.bytesOf_write partition extent

/-! ## Storages that take writes -/

def View.storeOf (v : View ω) : Option String → ω
  | none => v.store
  | some address => v.members address

def Course.TakenBy (x : Course) : Option String → Prop
  | none => x.progress ≠ .relaying
  | some address => x.mark address = .heard true

def Course.Writes (partition extent : UInt64) (replica : Option String) (x : Course) (w : Written) :
    Prop :=
  x.TakenBy replica ∧ writtenBy partition extent x.packet = some w

namespace View

/-- What the packets that are under way have written to an extent, leaving out one client. -/
def OverlaysBut (client : Nat) (partition extent : UInt64) (replica : Option String) (v : View ω)
    (w : Written) : Prop :=
  ∃ i, i ≠ client ∧ ∃ x ∈ v.courses i, x.Writes partition extent replica w

/-- What the packets that are under way have written to an extent. -/
def Overlays (partition extent : UInt64) (replica : Option String) (v : View ω) (w : Written) : Prop :=
  ∃ i, ∃ x ∈ v.courses i, x.Writes partition extent replica w

variable {v v' : View ω} {replica : Option String}

theorem overlays_iff (client : Nat) {w : Written} : v.Overlays partition extent replica w ↔
    (∃ x ∈ v.courses client, x.Writes partition extent replica w) ∨
      v.OverlaysBut client partition extent replica w := by
  constructor
  · rintro ⟨i, hi⟩
    by_cases hne : i = client
    · exact .inl (hne ▸ hi)
    · exact .inr ⟨i, hne, hi⟩
  · rintro (hclient | ⟨i, -, hi⟩)
    · exact ⟨client, hclient⟩
    · exact ⟨i, hi⟩

theorem overlays_setCourse {client : Nat} {o : Option Course} {w : Written} :
    (v.setCourse client o).Overlays partition extent replica w ↔
      (∃ x ∈ o, x.Writes partition extent replica w) ∨
        v.OverlaysBut client partition extent replica w := by
  rw [overlays_iff client, courses_setCourse_self]
  refine or_congr_right (exists_congr fun i ↦ and_congr_right fun hi ↦ ?_)
  rw [courses_setCourse_of_ne _ _ _ hi]

/-- What has been written changes with the packet of one client only if this is taken. -/
theorem overlays_keep {u : View ω} {client : Nat} {x x' : Course} (hu : u.courses = v.courses)
    (hx : v.courses client = some x) (hpacket : x'.packet = x.packet)
    (htaken : x'.TakenBy replica ↔ x.TakenBy replica) (w : Written) :
    (u.setCourse client (some x')).Overlays partition extent replica w ↔
      v.Overlays partition extent replica w := by
  rw [overlays_setCourse, overlays_iff client, hx]
  simp only [OverlaysBut, hu, Option.mem_some_iff, exists_eq_left', Course.Writes, hpacket, htaken]

theorem overlays_take {u : View ω} {client : Nat} {x x' : Course} (hu : u.courses = v.courses)
    (hx : v.courses client = some x) (hpacket : x'.packet = x.packet) (htaken : x'.TakenBy replica)
    (w : Written) :
    (u.setCourse client (some x')).Overlays partition extent replica w ↔
      v.Overlays partition extent replica w ∨ writtenBy partition extent x.packet = some w := by
  rw [overlays_setCourse, overlays_iff client, hx]
  simp only [OverlaysBut, hu, Option.mem_some_iff, exists_eq_left', Course.Writes, hpacket, htaken,
    true_and]
  constructor
  · rintro (hw | hothers)
    · exact .inr hw
    · exact .inl (.inr hothers)
  · rintro ((⟨-, hw⟩ | hothers) | hw)
    · exact .inl hw
    · exact .inr hothers
    · exact .inl hw

/-- All packets that are under way write, no two of them put different bytes in one place, and none is
answered with an error. -/
structure Agreeing (v : View ω) : Prop where
  writes : ∀ client x, v.courses client = some x → x.packet.header.opcode = .write
  compatible : ∀ i j x y, i ≠ j → v.courses i = some x → v.courses j = some y →
    Compatible x.packet y.packet
  succeeds : ∀ client x ok, v.courses client = some x → x.progress = .leaving ok → ok = true

theorem Agreeing.agrees (h : v.Agreeing) {client : Nat} {x : Course} {w w' : Written}
    (hx : v.courses client = some x) (hw : writtenBy partition extent x.packet = some w)
    (hw' : v.Overlays partition extent replica w') : w.Agrees w' := by
  obtain ⟨i, y, hy, -, hw'⟩ := hw'
  by_cases hi : client = i
  · subst hi
    obtain rfl := Option.some.inj (hx.symm.trans hy)
    obtain rfl := Option.some.inj (hw.symm.trans hw')
    exact .refl w
  · exact (h.compatible client i x y hi hx hy).agrees (h.writes client x hx) hw hw'

/-- An extent of one storage is as it was before the packets that are under way, but for what they have
written to it. -/
structure WovenAt (partition extent : UInt64) (deleted : Option Bool) (base : Nat → Option UInt8)
    (replica : Option String) (v : View Extent.Store) : Prop where
  deleted_eq : ((v.storeOf replica).extentAt partition extent).map Extent.State.deleted = deleted
  overlaid : Overlaid base (v.Overlays partition extent replica)
    (bytesOf ((v.storeOf replica).extentAt partition extent))

section WovenAt

variable {v v' : View Extent.Store} {deleted : Option Bool} {base : Nat → Option UInt8} {p : Packet}
  (h : v.WovenAt partition extent deleted base replica)
include h

theorem WovenAt.keep (hstore : v'.storeOf replica = v.storeOf replica)
    (hwrites : ∀ w, v'.Overlays partition extent replica w ↔ v.Overlays partition extent replica w) :
    v'.WovenAt partition extent deleted base replica where
  deleted_eq := hstore ▸ h.deleted_eq
  overlaid := hstore ▸ h.overlaid.congr hwrites

/-- A write is done over the others, with which it agrees. -/
theorem WovenAt.take (hp : p.header.opcode = .write)
    (hok : (applied Extent.Store.engine p (v.storeOf replica)).1.header.result = .ok)
    (hstore : v'.storeOf replica = (applied Extent.Store.engine p (v.storeOf replica)).2)
    (hwrites : ∀ w, v'.Overlays partition extent replica w ↔
      v.Overlays partition extent replica w ∨ writtenBy partition extent p = some w)
    (hagrees : ∀ w w', writtenBy partition extent p = some w →
      v.Overlays partition extent replica w' → w.Agrees w') :
    v'.WovenAt partition extent deleted base replica := by
  obtain ⟨hdeleted, hbytes⟩ := bytesOf_applied_of_ok hp hok partition extent
  rw [← hstore] at hdeleted hbytes
  refine ⟨hdeleted.trans h.deleted_eq, ?_⟩
  rw [hbytes]
  cases hw : writtenBy partition extent p with
  | none => exact h.overlaid.congr fun w ↦ by simp [hwrites, hw]
  | some w =>
    refine (h.overlaid.add fun w' ↦ hagrees w w' hw).congr fun w' ↦ ?_
    rw [hwrites, hw, Option.some.injEq, @eq_comm _ w w']

/-- A write that has been done everywhere becomes what was before. -/
theorem WovenAt.settle (hstore : v'.storeOf replica = v.storeOf replica)
    (htaken : ∀ w, writtenBy partition extent p = some w → v.Overlays partition extent replica w)
    (hsubset : ∀ w, v'.Overlays partition extent replica w → v.Overlays partition extent replica w)
    (hrest : ∀ w, v.Overlays partition extent replica w →
      v'.Overlays partition extent replica w ∨ writtenBy partition extent p = some w) :
    v'.WovenAt partition extent deleted ((writtenBy partition extent p).elim base (Written.over base))
      replica := by
  refine ⟨hstore ▸ h.deleted_eq, ?_⟩
  rw [hstore]
  cases hw : writtenBy partition extent p with
  | none => exact h.overlaid.congr fun w ↦ ⟨hsubset w, fun hwrites ↦ by simpa [hw] using hrest w hwrites⟩
  | some w =>
    refine h.overlaid.settle (htaken w hw) hsubset fun w' hwrites ↦ ?_
    rcases hrest w' hwrites with hwrites' | hsame
    · exact .inl hwrites'
    · exact .inr (Option.some.inj (hsame.symm.trans hw))

end WovenAt

/-- An extent is everywhere as it was before the packets that are under way, but for what they have written
to it. -/
def Woven (partition extent : UInt64) (addresses : List String) (v : View Extent.Store) : Prop :=
  ∃ deleted base, ∀ replica : Option String, (∀ address ∈ replica, address ∈ addresses) →
    v.WovenAt partition extent deleted base replica

variable {v v' : View Extent.Store} {addresses : List String}

theorem Woven.step (h : v.Woven partition extent addresses) (hv : v.Agreeing) (hv' : v'.Agreeing)
    (hs : Step Extent.Store.engine addresses v v') : v'.Woven partition extent addresses := by
  obtain ⟨deleted, base, hwoven⟩ := h
  cases hs with
  | rest heq => exact heq ▸ ⟨deleted, base, hwoven⟩
  | @begins client p hidle hp =>
    refine ⟨deleted, base, fun replica hreplica ↦ (hwoven replica hreplica).keep ?_ fun w ↦ ?_⟩
    · cases replica <;> rfl
    · have huntaken : ¬ Course.TakenBy ⟨p, .relaying, fun _ ↦ .untold⟩ replica := by
        cases replica <;> simp [Course.TakenBy]
      rw [overlays_setCourse, overlays_iff client, hidle]
      simp [Course.Writes, huntaken]
  | @tells client x address hx huntold =>
    refine ⟨deleted, base, fun replica hreplica ↦ (hwoven replica hreplica).keep ?_
      (overlays_keep rfl hx rfl ?_)⟩
    · cases replica <;> rfl
    · cases replica with
      | none => rfl
      | some a =>
        simp only [Course.TakenBy, Function.update_apply]
        split <;> simp_all
  | @hears client x address answer hx htold hanswer =>
    obtain rfl := hanswer.symm
    refine ⟨deleted, base, fun replica hreplica ↦ ?_⟩
    cases replica with
    | none => exact (hwoven none hreplica).keep rfl (overlays_keep rfl hx rfl Iff.rfl)
    | some a =>
      by_cases ha : a = address
      · subst ha
        have hstore := members_setMember_self a (applied Extent.Store.engine x.packet (v.members a)).2 v
        by_cases hok : (applied Extent.Store.engine x.packet (v.members a)).1.header.result = .ok
        · refine (hwoven _ hreplica).take (hv.writes client x hx) hok hstore
            (overlays_take rfl hx rfl ?_) fun w w' ↦ hv.agrees hx
          simp [Course.TakenBy, hok]
        · refine (hwoven _ hreplica).keep (hstore.trans (applied_of_result_ne_ok hok))
            (overlays_keep rfl hx rfl ?_)
          simp [Course.TakenBy, hok, htold]
      · refine (hwoven _ hreplica).keep (members_setMember_of_ne _ _ v ha) (overlays_keep rfl hx rfl ?_)
        simp only [Course.TakenBy, Function.update_of_ne ha]
  | @applies client x answer hx hrelaying hanswer =>
    obtain rfl := hanswer.symm
    have hok : (applied Extent.Store.engine x.packet v.store).1.header.result = .ok := by
      by_contra hne
      have := hv'.succeeds client _ false (courses_setCourse_self ..) (by simp [hne])
      cases this
    refine ⟨deleted, base, fun replica hreplica ↦ ?_⟩
    cases replica with
    | none =>
      refine (hwoven none hreplica).take (hv.writes client x hx) hok rfl
        (overlays_take rfl hx rfl ?_) fun w w' ↦ hv.agrees hx
      simp [Course.TakenBy, hok]
    | some a => exact (hwoven _ hreplica).keep rfl (overlays_keep rfl hx rfl Iff.rfl)
  | @collects client x ok hx happlied hheard =>
    refine ⟨deleted, base, fun replica hreplica ↦ (hwoven replica hreplica).keep ?_
      (overlays_keep rfl hx rfl ?_)⟩
    · cases replica <;> rfl
    · cases replica <;> simp [Course.TakenBy, happlied]
  | @leaves client x ok hx hleaving haccepted =>
    obtain rfl := hv.succeeds client x ok hx hleaving
    refine ⟨deleted, _, fun replica hreplica ↦ (hwoven replica hreplica).settle (?_ : _ = _)
      (fun w hw ↦ ⟨client, x, hx, ?_, hw⟩) (fun w hwrites ↦ ?_) fun w hwrites ↦ ?_⟩
    · cases replica <;> rfl
    · cases replica with
      | none => simp [Course.TakenBy, hleaving]
      | some a => exact haccepted rfl a (hreplica a rfl)
    · rw [overlays_setCourse] at hwrites
      exact (overlays_iff client).mpr (.inr (by simpa using hwrites))
    · rw [overlays_setCourse]
      rw [overlays_iff client, hx] at hwrites
      rcases hwrites with ⟨y, hy, -, hw⟩ | hothers
      · obtain rfl := Option.some.inj hy
        exact .inr hw
      · exact .inl (.inr hothers)

end View

/-! ## All packets of all clients -/

namespace Group

/-- All packets that are under way write, and no two of them put different bytes in one place. -/
def WritesAgree (g : Group ω τ) : Prop :=
  (∀ o ∈ g.clients, ∀ t ∈ o, t.packet.header.opcode = .write) ∧
    g.clients.Pairwise fun o o' ↦ ∀ t ∈ o, ∀ u ∈ o', Compatible t.packet u.packet

instance (g : Group ω τ) : Decidable g.WritesAgree :=
  inferInstanceAs (Decidable ((∀ o ∈ g.clients, ∀ t ∈ o, t.packet.header.opcode = .write) ∧
    g.clients.Pairwise fun o o' ↦ ∀ t ∈ o, ∀ u ∈ o', Compatible t.packet u.packet))

variable {g g' : Group ω τ} {marks : Nat → String → Mark} {addresses : List String}

theorem writesAgree_idle (primary : Node ω (World ω τ)) (n : Nat) : (idle primary n).WritesAgree := by
  have hnone : ∀ o ∈ List.replicate n (none : Option Task), o = none :=
    fun o ho ↦ List.eq_of_mem_replicate ho
  refine ⟨fun o ho t ht ↦ ?_, List.pairwise_replicate.mpr (.inr (by simp))⟩
  rw [hnone o ho] at ht
  cases ht

theorem WritesAgree.compatible (h : g.WritesAgree) {i j : Nat} {t u : Task} (hij : i ≠ j)
    (ht : g.clients[i]? = some (some t)) (hu : g.clients[j]? = some (some u)) :
    Compatible t.packet u.packet := by
  obtain ⟨hi, ht⟩ := List.getElem?_eq_some_iff.mp ht
  obtain ⟨hj, hu⟩ := List.getElem?_eq_some_iff.mp hu
  have hpairwise := List.pairwise_iff_getElem.mp h.2
  rcases Nat.lt_or_gt_of_ne hij with hlt | hgt
  · exact hpairwise i j hi hj hlt t ht u hu
  · exact (hpairwise j i hj hi hgt u hu t ht).symm (h.1 _ (List.getElem_mem hj) u hu)

theorem Tracked.agreeing (h : g.Tracked addresses marks) (hagree : g.WritesAgree)
    (hfine : ¬ g.Failing) : (g.view marks).Agreeing where
  writes client x hx := by
    obtain ⟨t, ht, rfl⟩ := exists_of_coursesOf_eq_some hx
    exact hagree.1 _ (List.mem_of_getElem? ht) t rfl
  compatible i j x y hij hx hy := by
    obtain ⟨t, ht, rfl⟩ := exists_of_coursesOf_eq_some hx
    obtain ⟨u, hu, rfl⟩ := exists_of_coursesOf_eq_some hy
    exact hagree.compatible hij ht hu
  succeeds client x ok hx hleaving := by
    obtain ⟨t, ht, rfl⟩ := exists_of_coursesOf_eq_some hx
    cases hstage : t.stage with
    | relaying relays | collecting replies => simp [Task.course, hstage, progressOf] at hleaving
    | leaving ok' =>
      obtain rfl : ok' = ok := by simpa [Task.course, hstage, progressOf] using hleaving
      refine ((h.tasks client t ht).ending hstage).ok_of_result ?_
      by_contra hresult
      exact hfine (.inr ⟨client, t, ht, by simpa only [Task.Failed, hstage] using hresult⟩)

theorem relaysGoOn_of_not_failing (hfine : ¬ g.Failing) : g.RelaysGoOn := by
  intro o ho t ht
  obtain rfl : o = some t := ht
  obtain ⟨client, hclient⟩ := List.mem_iff_getElem?.mp ho
  by_contra hfailed
  refine hfine (.inr ⟨client, t, hclient, ?_⟩)
  cases hstage : t.stage with
  | relaying relays => simpa [Task.Failed, hstage] using hfailed
  | collecting replies | leaving ok => simp [hstage, relayFailed] at hfailed

/-- As long as nothing has failed nothing is left unread on a line that the node has closed. -/
theorem Tracked.lateIsVain (h : g.Tracked addresses marks)
    {env : Environment ω (World ω τ)} {m : Move ω τ} (hs : g.step env m = some g')
    (hfine : ¬ g.Failing) : g.LateIsVain m g' := by
  cases m with
  | begins | acts | leaves => trivial
  | answers number turn =>
    intro line hline hclosed
    obtain rfl := Option.some.inj hs
    rcases World.answer_cases number turn g.world with hsame | ⟨line', -, -, hline', -, hnonempty, -⟩
    · rw [hsame]
      rfl
    · obtain rfl := Option.some.inj (hline.symm.trans hline')
      exact absurd (.inl (h.late number line hline hclosed hnonempty)) hfine

end Group

/-- When several clients write, and no two writes that are under way together put different bytes in one
place, every extent is the same on the node and all its followers once all writes were answered with
success, in whatever order they were relayed, applied and read. -/
theorem replicas_agree_of_compatible_writes {store : Extent.Store} {limits : Follower.LinkLimits}
    {buffers : BufferPool} {collector : Latency.Collector} {w : World Extent.Store τ} {n : Nat}
    {env : Environment Extent.Store (World Extent.Store τ)} {moves : List (Move Extent.Store τ)}
    {g : Group Extent.Store τ} {addresses : List String} (haddresses : addresses.Nodup)
    (hlines : ∀ number, w.lines number = none) (hstill : w.Still)
    (hmembers : ∀ address ∈ addresses, (w.members address).store = store)
    (hnetwork : env.network = network) (hengine : env.engine = Extent.Store.engine)
    (hmoves : ∀ m ∈ moves, m.Admissible Extent.Store.engine addresses)
    (hrun : Group.run env moves (Group.idle (.idle store limits buffers collector w) n) = some g)
    (halong : Group.Along env (fun _ _ g' ↦ g'.WritesAgree) moves
      (Group.idle (.idle store limits buffers collector w) n))
    (hidle : g.Idle) (hanswers : ∀ a ∈ g.answers, a.2.header.result = .ok) :
    ∀ address ∈ addresses, ∀ partition extent,
      (g.world.members address).store.extentAt partition extent =
        g.primary.store.extentAt partition extent := by
  intro address ha partition extent
  let Inv (g : Group Extent.Store τ) : Prop := g.WritesAgree ∧
    ∃ marks, g.Tracked addresses marks ∧ (g.view marks).Woven partition extent addresses
  have hfine : ¬ g.Failing := by
    rintro (⟨a, ha, hne⟩ | ⟨client, t, ht, -⟩)
    · exact hne (hanswers a ha)
    · cases hidle _ (List.mem_of_getElem? ht)
  have hnone {g : Group Extent.Store τ} (hidle : g.Idle) (marks : Nat → String → Mark)
      (replica : Option String) (w : Written) :
      ¬ (g.view marks).Overlays partition extent replica w := by
    rintro ⟨client, x, hx, -⟩
    cases (Group.courses_of_idle hidle marks client).symm.trans hx
  have hstart : Inv (Group.idle (.idle store limits buffers collector w) n) := by
    refine ⟨Group.writesAgree_idle _ n, fun _ _ ↦ .untold, Group.tracked_idle hlines hstill n,
      (store.extentAt partition extent).map Extent.State.deleted,
      bytesOf (store.extentAt partition extent), fun replica hreplica ↦ ?_⟩
    have hstore : ((Group.idle (.idle store limits buffers collector w) n).view
        fun _ _ ↦ .untold).storeOf replica = store := by
      cases replica with
      | none => rfl
      | some a => exact hmembers a (hreplica a rfl)
    refine ⟨by rw [hstore], ?_⟩
    rw [hstore]
    exact .refl _ (hnone (fun o ho ↦ List.eq_of_mem_replicate ho) _ replica)
  have hend : Inv g := by
    refine Group.run_induction (fun g m g' hm hg hs hfair ↦ ?_) hrun
      (Group.along_not_failing hrun hfine halong) hstart
    obtain ⟨hagree, marks, htracked, hwoven⟩ := hg
    obtain ⟨hagree', hfine, hfine'⟩ := hfair
    obtain ⟨marks', htracked', hstep⟩ := htracked.step haddresses hnetwork (hengine ▸ hmoves m hm) hs
      (Group.relaysGoOn_of_not_failing hfine') (htracked.lateIsVain hs hfine)
    exact ⟨hagree', marks', htracked', hwoven.step (htracked.agreeing hagree hfine)
      (htracked'.agreeing hagree' hfine') (hengine ▸ hstep)⟩
  obtain ⟨-, marks, -, deleted, base, hwoven⟩ := hend
  have hprimary := hwoven none (by simp)
  have hmember := hwoven (some address) (by simpa using ha)
  refine Extent.eq_of_bytesOf_eq (hmember.deleted_eq.trans hprimary.deleted_eq.symm) ?_
  exact (hmember.overlaid.eq_base (hnone hidle marks _)).trans
    (hprimary.overlaid.eq_base (hnone hidle marks _)).symm

def twoBytes : Extent.Store :=
  Extent.Store.run [.createExtent 1 1, .write 1 1 0 (Bytes.ofText "ab")] (.empty 10)

/-- A request to write to the extent, to be relayed to one follower. -/
def writeRelayed (requestId offset : Int64) (text : String) : Packet :=
  (Packet.write 0 requestId 1 1 offset (Bytes.ofText text)).withFollowers
    (Follower.encode ["b:2"]).toUTF8 1

/-- Two packets of two clients are under way together, and the follower reads them in the other order. -/
def crossedMoves (p q : Packet) : List (Move Extent.Store Unit) :=
  .begins 0 p :: .begins 1 q :: relayMoves 0 ++ relayMoves 1 ++
    [.acts 0 .proceed, .acts 1 .proceed, .answers 1 wholeTurn, .answers 0 wholeTurn,
      .acts 0 (.exchange 0), .acts 0 .proceed, .leaves 0,
      .acts 1 (.exchange 0), .acts 1 .proceed, .leaves 1]

theorem admissible_crossedMoves {p q : Packet} {addresses : List String}
    (hp : (Move.begins 0 p : Move Extent.Store Unit).Admissible Extent.Store.engine addresses)
    (hq : (Move.begins 1 q : Move Extent.Store Unit).Admissible Extent.Store.engine addresses) :
    ∀ m ∈ crossedMoves p q, m.Admissible Extent.Store.engine addresses := by
  simp only [crossedMoves, relayMoves, List.cons_append, List.nil_append, List.forall_mem_cons]
  exact ⟨hp, hq, trivial, trivial, trivial, trivial, trivial, trivial, rfl, rfl, trivial, trivial,
    trivial, trivial, trivial, trivial, by simp⟩

/-- Two bytes of an extent are written by two clients in one order on the node and in the other on its
follower, and both have both bytes. -/
theorem replicas_agree_of_compatible_writes_crossed :
    let env := Node.environment {} network 0
    ∃ g, Group.run env (crossedMoves (writeRelayed 1 0 "x") (writeRelayed 2 1 "y"))
        (stillGroup twoBytes 2) = some g ∧
      g.primary.store.extentAt 1 1 = some ⟨Bytes.ofText "xy", false⟩ ∧
      (g.world.members "b:2").store.extentAt 1 1 = g.primary.store.extentAt 1 1 := by
  intro env
  have hend : ((Group.run env (crossedMoves (writeRelayed 1 0 "x") (writeRelayed 2 1 "y"))
      (stillGroup twoBytes 2)).any fun g ↦
        decide (g.Quiet ∧ (∀ a ∈ g.answers, a.2.header.result = .ok) ∧
          g.primary.store.extentAt 1 1 = some ⟨Bytes.ofText "xy", false⟩)) = true := by decide +kernel
  obtain ⟨g, hrun, hg⟩ := (Option.any_eq_true _ _).mp hend
  obtain ⟨hquiet, hanswers, hextent⟩ := of_decide_eq_true hg
  have hmoves : ∀ m ∈ crossedMoves (writeRelayed 1 0 "x") (writeRelayed 2 1 "y"),
      m.Admissible Extent.Store.engine ["b:2"] :=
    admissible_crossedMoves
      (admissible_begins 0 (.filled 0 0) (by decide +kernel) (by decide +kernel))
      (admissible_begins 1 (.filled 0 0) (by decide +kernel) (by decide +kernel))
  refine ⟨g, hrun, hextent, ?_⟩
  refine replicas_agree_of_compatible_writes (List.nodup_singleton "b:2") ?_ ?_ ?_ rfl rfl hmoves hrun
    ?_ hquiet.1 hanswers "b:2" (by simp) 1 1
  · exact fun _ ↦ rfl
  · exact fun _ ↦ ⟨rfl, rfl⟩
  · exact fun _ _ ↦ rfl
  · decide +kernel

/-- One byte of an extent is written by two clients in one order on the node and in the other on its
follower.  Both are answered with success, and the node has one byte and its follower the other. -/
theorem replicas_differ_of_crossed_writes :
    let env := Node.environment {} network 0
    let p := writeRelayed 1 0 "x"
    let q := writeRelayed 2 0 "y"
    p.header.opcode = .write ∧ q.header.opcode = .write ∧
      (∀ m ∈ crossedMoves p q, m.Admissible Extent.Store.engine ["b:2"]) ∧
      ∃ g, Group.run env (crossedMoves p q) (stillGroup twoBytes 2) = some g ∧ g.Quiet ∧
        (∀ a ∈ g.answers, a.2.header.result = .ok) ∧
        g.primary.store.extentAt 1 1 = some ⟨Bytes.ofText "yb", false⟩ ∧
        (g.world.members "b:2").store.extentAt 1 1 = some ⟨Bytes.ofText "xb", false⟩ := by
  intro env p q
  have hend : ((Group.run env (crossedMoves p q) (stillGroup twoBytes 2)).any fun g ↦
      decide (g.Quiet ∧ (∀ a ∈ g.answers, a.2.header.result = .ok) ∧
        g.primary.store.extentAt 1 1 = some ⟨Bytes.ofText "yb", false⟩ ∧
        (g.world.members "b:2").store.extentAt 1 1 = some ⟨Bytes.ofText "xb", false⟩)) = true := by
    decide +kernel
  obtain ⟨g, hrun, hg⟩ := (Option.any_eq_true _ _).mp hend
  exact ⟨rfl, rfl, admissible_crossedMoves
    (admissible_begins 0 (.filled 0 0) (by decide +kernel) (by decide +kernel))
    (admissible_begins 1 (.filled 0 0) (by decide +kernel) (by decide +kernel)),
    g, hrun, of_decide_eq_true hg⟩

end ReplicaChain.Cluster
