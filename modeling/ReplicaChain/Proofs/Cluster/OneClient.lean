import ReplicaChain.Proofs.Cluster.Courses
import ReplicaChain.Proofs.Cluster.Refinement

/-!
# Followers that lag behind one client

A client waits for the reply to a packet before it sends the next one, and so at most one packet is under
way.  Each follower reads it when it likes, and meanwhile has the storage that the node had before.  When
the packet is answered with success all followers have read it; when it is answered with an error that the
followers gave, too.  Only when the node itself refuses a packet it does not wait for the followers, but
closes the lines, on which the packet may still be read.  As long as the followers refuse it there, all
storages agree; once the node has gone on to other packets a follower may accept it, and its storage differs
from then on.
-/

namespace ReplicaChain.Cluster

open Handling (Relayable applied)
open Wire (Packet)

variable {τ : Type} {addresses : List String}

/-! ## One packet under way -/

/-- The storages while a packet is relayed: each is as it was before the packet or as the packet
leaves it. -/
structure Course.Spreads (addresses : List String) (base : Extent.Store) (v : View Extent.Store)
    (x : Course) : Prop where
  store_eq : v.store =
    if x.progress = .relaying then base else (applied Extent.Store.engine x.packet base).2
  untouched : ∀ address ∈ addresses, (∀ accepted, x.mark address ≠ .heard accepted) →
    v.members address = base
  touched : ∀ address ∈ addresses, ∀ accepted, x.mark address = .heard accepted →
    v.members address = (applied Extent.Store.engine x.packet base).2
  /-- A packet is not answered before all followers have read it, unless it changes nothing. -/
  complete : ∀ ok, x.progress = .leaving ok →
    (applied Extent.Store.engine x.packet base).2 = base ∨
      ∀ address ∈ addresses, ∃ accepted, x.mark address = .heard accepted

/-- At most one packet is under way, and without one all storages are equal. -/
structure View.Level (addresses : List String) (v : View Extent.Store) : Prop where
  alone : ∀ client, client ≠ 0 → v.courses client = none
  level : v.courses 0 = none → ∀ address ∈ addresses, v.members address = v.store
  spreads : ∀ x, v.courses 0 = some x → ∃ base, x.Spreads addresses base v

namespace View

variable {v v' : View Extent.Store}

theorem Level.client_eq (h : v.Level addresses) {client : Nat} {x : Course}
    (hx : v.courses client = some x) : client = 0 := by
  by_contra hne
  rw [h.alone client hne] at hx
  cases hx

/-- It suffices to look at the packet that has come further. -/
theorem Level.of_spreads (base : Extent.Store) {x : Course}
    (halone : ∀ client, client ≠ 0 → v.courses client = none) (hx : v.courses 0 = some x)
    (hspreads : x.Spreads addresses base v) : v.Level addresses where
  alone := halone
  level hnone := by
    rw [hx] at hnone
    cases hnone
  spreads y hy := by
    obtain rfl := Option.some.inj (hx.symm.trans hy)
    exact ⟨base, hspreads⟩

/-- Whatever happens next, the storages stay level or the packet spreads. -/
theorem Level.step (h : v.Level addresses) (hs : Step Extent.Store.engine addresses v v')
    (halone : ∀ client, client ≠ 0 → v'.courses client = none) : v'.Level addresses := by
  cases hs with
  | rest hv => exact hv ▸ h
  | @begins client p hidle hp =>
    obtain rfl : client = 0 := by
      by_contra hne
      simpa [courses_setCourse_self] using halone client hne
    refine .of_spreads v.store halone (courses_setCourse_self ..) ⟨rfl, ?_, ?_, ?_⟩
    · exact fun address ha _ ↦ h.level hidle address ha
    · simp
    · simp
  | @tells client x address hx huntold =>
    obtain rfl := h.client_eq hx
    obtain ⟨base, hstore, huntouched, htouched, hcomplete⟩ := h.spreads x hx
    have hheard (a : String) (accepted : Bool) :
        Function.update x.mark address .told a = .heard accepted ↔ x.mark a = .heard accepted := by
      rw [Function.update_apply]
      split <;> simp_all
    refine .of_spreads base halone (courses_setCourse_self ..) ⟨hstore, ?_, ?_, ?_⟩
    · exact fun a ha hnone ↦ huntouched a ha fun accepted ↦ mt (hheard a accepted).mpr (hnone accepted)
    · exact fun a ha accepted hm ↦ htouched a ha accepted ((hheard a accepted).mp hm)
    · intro ok hok
      refine (hcomplete ok hok).imp_right fun hall a ha ↦ ?_
      obtain ⟨accepted, hm⟩ := hall a ha
      exact ⟨accepted, (hheard a accepted).mpr hm⟩
  | @hears client x address answer hx htold hanswer =>
    obtain rfl := h.client_eq hx
    obtain ⟨base, hstore, huntouched, htouched, hcomplete⟩ := h.spreads x hx
    refine .of_spreads base halone (courses_setCourse_self ..) ⟨hstore, ?_, ?_, ?_⟩
    · intro a ha hnone
      have hne : a ≠ address := by
        rintro rfl
        exact hnone _ (Function.update_self ..)
      simp only [Function.update_of_ne hne] at hnone
      exact (members_setMember_of_ne _ _ v hne).trans (huntouched a ha hnone)
    · intro a ha accepted hm
      by_cases hne : a = address
      · subst hne
        rw [huntouched a ha (by simp [htold])] at hanswer
        exact (members_setMember_self ..).trans (congrArg Prod.snd hanswer.symm)
      · simp only [Function.update_of_ne hne] at hm
        exact (members_setMember_of_ne _ _ v hne).trans (htouched a ha accepted hm)
    · intro ok hok
      refine (hcomplete ok hok).imp_right fun hall a ha ↦ ?_
      by_cases hne : a = address
      · subst hne
        exact ⟨_, Function.update_self ..⟩
      · simp only [Function.update_of_ne hne]
        exact hall a ha
  | @applies client x answer hx hrelaying hanswer =>
    obtain rfl := h.client_eq hx
    obtain ⟨base, hstore, huntouched, htouched, hcomplete⟩ := h.spreads x hx
    rw [if_pos hrelaying] at hstore
    rw [hstore] at hanswer
    refine .of_spreads base halone (courses_setCourse_self ..) ⟨?_, huntouched, htouched, ?_⟩
    · simp only [hanswer, store_setCourse, store_setStore]
      split <;> rfl
    · intro ok hok
      refine .inl (applied_of_result_ne_ok fun hresult ↦ ?_)
      simp_all
  | @collects client x ok hx happlied hheard =>
    obtain rfl := h.client_eq hx
    obtain ⟨base, hstore, huntouched, htouched, hcomplete⟩ := h.spreads x hx
    refine .of_spreads base halone (courses_setCourse_self ..)
      ⟨?_, huntouched, htouched, fun _ _ ↦ .inr hheard⟩
    rw [happlied] at hstore
    exact hstore
  | @leaves client x ok hx hleaving haccepted =>
    obtain rfl := h.client_eq hx
    obtain ⟨base, hstore, huntouched, htouched, hcomplete⟩ := h.spreads x hx
    rw [hleaving] at hstore
    refine ⟨halone, fun _ a ha ↦ ?_, fun y hy ↦ ?_⟩
    · refine Eq.trans ?_ hstore.symm
      by_cases hm : ∃ accepted, x.mark a = .heard accepted
      · obtain ⟨accepted, hm⟩ := hm
        exact htouched a ha accepted hm
      · rcases hcomplete ok hleaving with hsame | hall
        · exact (huntouched a ha (not_exists.mp hm)).trans hsame.symm
        · exact absurd (hall a ha) hm
    · rw [courses_setCourse_self] at hy
      cases hy

end View

/-! ## All packets of a client -/

/-- A node and its followers that start with equal storages have equal storages whenever no packet is under
way, whatever the followers do in between, if no relay fails and what a follower reads on a line that the
node has closed leaves its storage as it is. -/
theorem replicas_agree_of_one_client {store : Extent.Store} {limits : Follower.LinkLimits}
    {buffers : BufferPool} {collector : Latency.Collector} {w : World Extent.Store τ}
    {env : Environment Extent.Store (World Extent.Store τ)} {moves : List (Move Extent.Store τ)}
    {g : Group Extent.Store τ} (haddresses : addresses.Nodup)
    (hlines : ∀ number, w.lines number = none) (hstill : w.Still)
    (hmembers : ∀ address ∈ addresses, (w.members address).store = store)
    (hnetwork : env.network = network) (hengine : env.engine = Extent.Store.engine)
    (hmoves : ∀ m ∈ moves, m.Admissible Extent.Store.engine addresses)
    (hrun : Group.run env moves (Group.idle (.idle store limits buffers collector w) 1) = some g)
    (halong : Group.Along env (fun g m g' ↦ g'.RelaysGoOn ∧ g.LateIsVain m g') moves
      (Group.idle (.idle store limits buffers collector w) 1))
    (hidle : g.Idle) :
    ∀ address ∈ addresses, (g.world.members address).store = g.primary.store := by
  let Inv (g : Group Extent.Store τ) : Prop :=
    g.clients.length = 1 ∧ ∃ marks, g.Tracked addresses marks ∧ (g.view marks).Level addresses
  have halone {g : Group Extent.Store τ} (hone : g.clients.length = 1)
      (marks : Nat → String → Mark) (client : Nat) (hclient : client ≠ 0) :
      (g.view marks).courses client = none := by
    have hnone : g.clients[client]? = none := List.getElem?_eq_none (by omega)
    simp [Group.view, coursesOf, hnone]
  have hstart : Inv (Group.idle (.idle store limits buffers collector w) 1) := by
    refine ⟨rfl, fun _ _ ↦ .untold, Group.tracked_idle hlines hstill 1, halone rfl _, ?_, fun x hx ↦ ?_⟩
    · exact fun _ address ha ↦ hmembers address ha
    · cases hx
  have hend : Inv g := by
    refine Group.run_induction (fun g m g' hm hg hs hfair ↦ ?_) hrun halong hstart
    obtain ⟨hone, marks, htracked, hlevel⟩ := hg
    have hone' : g'.clients.length = 1 := (Group.length_clients_step hs).trans hone
    obtain ⟨marks', htracked', hstep⟩ := htracked.step haddresses hnetwork
      (hengine ▸ hmoves m hm) hs hfair.1 hfair.2
    exact ⟨hone', marks', htracked', hlevel.step (hengine ▸ hstep) (halone hone' marks')⟩
  obtain ⟨-, marks, -, hlevel⟩ := hend
  exact hlevel.level (Group.courses_of_idle hidle marks 0)

def deleteRelayed : Packet :=
  (Packet.range 0 1 .markDelete 1 1 0 0).withFollowers (Follower.encode ["b:2"]).toUTF8 1

/-- A request to create the same extent, to be relayed to the same follower. -/
def createRelayed : Packet :=
  (Packet.createExtent 0 2 1 1).withFollowers (Follower.encode ["b:2"]).toUTF8 1

/-- The node relays the request to delete the extent, refuses it itself and closes the line. -/
def deleteMoves : List (Move Extent.Store Unit) :=
  .begins 0 deleteRelayed :: relayMoves 0 ++ [.acts 0 .proceed, .leaves 0]

def createMoves : List (Move Extent.Store Unit) :=
  .begins 0 createRelayed :: relayMoves 0 ++ [.acts 0 .proceed, .answers 1 wholeTurn,
    .acts 0 (.exchange 0), .acts 0 .proceed, .leaves 0]

theorem admissible_deleteMoves :
    ∀ m ∈ deleteMoves, m.Admissible Extent.Store.engine ["b:2"] := by
  have hbegins : (Move.begins 0 deleteRelayed : Move Extent.Store Unit).Admissible _ ["b:2"] :=
    admissible_begins 0 (.filled 0 0) (by decide +kernel) (by decide +kernel)
  simp only [deleteMoves, relayMoves, List.cons_append, List.nil_append, List.forall_mem_cons]
  exact ⟨hbegins, trivial, trivial, trivial, trivial, by simp⟩

theorem admissible_createMoves :
    ∀ m ∈ createMoves, m.Admissible Extent.Store.engine ["b:2"] := by
  have hbegins : (Move.begins 0 createRelayed : Move Extent.Store Unit).Admissible _ ["b:2"] :=
    admissible_begins 0 (.filled 0 0) (by decide +kernel) (by decide +kernel)
  simp only [createMoves, relayMoves, List.cons_append, List.nil_append, List.forall_mem_cons]
  exact ⟨hbegins, trivial, trivial, trivial, rfl, trivial, trivial, trivial, by simp⟩

/-- A follower that refuses a deletion, which the node has refused, before the next packet is sent has the
same storage as the node after that packet. -/
theorem replicas_agree_of_one_client_refused :
    let env := Node.environment {} network 0
    ∃ g, Group.run env (deleteMoves ++ .answers 0 wholeTurn :: createMoves)
        (stillGroup (.empty 10) 1) = some g ∧
      g.primary.store ≠ .empty 10 ∧ (g.world.members "b:2").store = g.primary.store := by
  intro env
  have hend : ((Group.run env (deleteMoves ++ .answers 0 wholeTurn :: createMoves)
      (stillGroup (.empty 10) 1)).any fun g ↦
        decide (g.Quiet ∧ g.primary.store ≠ .empty 10)) = true := by decide +kernel
  obtain ⟨g, hrun, hg⟩ := (Option.any_eq_true _ _).mp hend
  obtain ⟨hquiet, hextent⟩ := of_decide_eq_true hg
  have hmoves : ∀ m ∈ deleteMoves ++ .answers 0 wholeTurn :: createMoves,
      m.Admissible Extent.Store.engine ["b:2"] :=
    List.forall_mem_append.mpr ⟨admissible_deleteMoves,
      List.forall_mem_cons.mpr ⟨rfl, admissible_createMoves⟩⟩
  refine ⟨g, hrun, hextent, ?_⟩
  refine replicas_agree_of_one_client (List.nodup_singleton "b:2") ?_ ?_ ?_ rfl rfl hmoves hrun ?_
    hquiet.1 "b:2" (by simp)
  · exact fun _ ↦ rfl
  · exact fun _ ↦ ⟨rfl, rfl⟩
  · exact fun _ _ ↦ rfl
  · decide +kernel

/-- The same deletion, when the follower reads it only after the extent was created, deletes it there. -/
theorem replicas_differ_of_one_client_late :
    let env := Node.environment {} network 0
    let moves := deleteMoves ++ createMoves ++ [.answers 0 wholeTurn]
    (∀ m ∈ moves, m.Admissible Extent.Store.engine ["b:2"]) ∧
      Group.Along env (fun _ _ g' ↦ g'.RelaysGoOn) moves (stillGroup (.empty 10) 1) ∧
      ∃ g, Group.run env moves (stillGroup (.empty 10) 1) = some g ∧ g.Quiet ∧
        (g.world.members "b:2").store ≠ g.primary.store := by
  intro env moves
  have hend : ((Group.run env moves (stillGroup (.empty 10) 1)).any fun g ↦
      decide (g.Quiet ∧ (g.world.members "b:2").store ≠ g.primary.store)) = true := by decide +kernel
  obtain ⟨g, hrun, hg⟩ := (Option.any_eq_true _ _).mp hend
  have hmoves : ∀ m ∈ moves, m.Admissible Extent.Store.engine ["b:2"] :=
    List.forall_mem_append.mpr ⟨List.forall_mem_append.mpr ⟨admissible_deleteMoves,
      admissible_createMoves⟩, List.forall_mem_singleton.mpr rfl⟩
  exact ⟨hmoves, by decide +kernel, g, hrun, of_decide_eq_true hg⟩

end ReplicaChain.Cluster
