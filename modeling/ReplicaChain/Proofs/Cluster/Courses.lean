import ReplicaChain.Proofs.Cluster.Hearing

/-!
# The courses of packets

What the storages of a group come to depends on little: which packets are under way, how far each has
come at the node and with every follower, and in which order the node and its followers apply them.  Every
move of a group is a step of this view or leaves it as it is.  What is proved of all steps therefore holds
along every run, whatever links and buffers are used on the way.
-/

namespace ReplicaChain.Cluster

open Follower (Receiving SendStage Sending)
open Handling (Act Relayable Stage applied)
open Wire (Packet)

variable {ω τ : Type}

/-! ## Views -/

/-- How far a packet has come at the node. -/
inductive Progress where
  | relaying
  /-- The node has applied the packet and collects the replies. -/
  | applied
  /-- The reply is made, with success or not. -/
  | leaving (ok : Bool)
  deriving DecidableEq, Repr

def progressOf : Stage → Progress
  | .relaying _ => .relaying
  | .collecting _ => .applied
  | .leaving ok => .leaving ok

structure Course where
  packet : Packet
  progress : Progress
  mark : String → Mark

/-- The course of a task, with the marks of its followers. -/
def Task.course (mark : String → Mark) (t : Task) : Course :=
  ⟨t.packet, progressOf t.stage, mark⟩

def coursesOf (clients : List (Option Task)) (marks : Nat → String → Mark) (client : Nat) :
    Option Course :=
  clients[client]?.join.map (·.course (marks client))

/-- The storages of a node and its followers, and the packets under way. -/
structure View (ω : Type) where
  store : ω
  members : String → ω
  courses : Nat → Option Course

def View.setStore (store : ω) (v : View ω) : View ω :=
  { v with store }

def View.setMember (address : String) (store : ω) (v : View ω) : View ω :=
  { v with members := Function.update v.members address store }

def View.setCourse (client : Nat) (o : Option Course) (v : View ω) : View ω :=
  { v with courses := Function.update v.courses client o }

namespace View

variable (client : Nat) (o : Option Course) (address : String) (store : ω) (v : View ω)

@[simp]
theorem store_setStore : (v.setStore store).store = store := rfl

@[simp]
theorem members_setStore : (v.setStore store).members = v.members := rfl

@[simp]
theorem courses_setStore : (v.setStore store).courses = v.courses := rfl

@[simp]
theorem store_setMember : (v.setMember address store).store = v.store := rfl

@[simp]
theorem courses_setMember : (v.setMember address store).courses = v.courses := rfl

@[simp]
theorem members_setMember_self : (v.setMember address store).members address = store := by
  simp only [setMember, Function.update_self]

theorem members_setMember_of_ne {a : String} (ha : a ≠ address) :
    (v.setMember address store).members a = v.members a := by
  simp only [setMember, Function.update_of_ne ha]

@[simp]
theorem store_setCourse : (v.setCourse client o).store = v.store := rfl

@[simp]
theorem members_setCourse : (v.setCourse client o).members = v.members := rfl

@[simp]
theorem courses_setCourse_self : (v.setCourse client o).courses client = o := by
  simp only [setCourse, Function.update_self]

theorem courses_setCourse_of_ne {i : Nat} (hi : i ≠ client) :
    (v.setCourse client o).courses i = v.courses i := by
  simp only [setCourse, Function.update_of_ne hi]

theorem setCourse_eq_self (hx : v.courses client = o) : v.setCourse client o = v := by
  rw [setCourse, ← hx, Function.update_eq_self]

end View

def Group.view (marks : Nat → String → Mark) (g : Group ω τ) : View ω :=
  ⟨g.primary.store, fun address ↦ (g.world.members address).store, coursesOf g.clients marks⟩

theorem coursesOf_eq_some {clients : List (Option Task)} {marks : Nat → String → Mark}
    {client : Nat} {t : Task} (ht : clients[client]? = some (some t)) :
    coursesOf clients marks client = some (t.course (marks client)) := by
  simp [coursesOf, ht]

theorem exists_of_coursesOf_eq_some {clients : List (Option Task)} {marks : Nat → String → Mark}
    {client : Nat} {x : Course} (hx : coursesOf clients marks client = some x) :
    ∃ t, clients[client]? = some (some t) ∧ t.course (marks client) = x := by
  obtain ⟨t, ht, hx⟩ := Option.map_eq_some_iff.mp hx
  exact ⟨t, Option.join_eq_some_iff.mp ht, hx⟩

/-- Only the course of one client changes with it. -/
theorem coursesOf_set {clients : List (Option Task)} {client : Nat} (h : client < clients.length)
    {marks marks' : Nat → String → Mark} (hmarks : ∀ i, i ≠ client → marks' i = marks i)
    (o : Option Task) :
    coursesOf (clients.set client o) marks' =
      Function.update (coursesOf clients marks) client (o.map (·.course (marks' client))) := by
  funext i
  by_cases hi : i = client
  · subst hi
    rw [Function.update_self, coursesOf, List.getElem?_set_self h]
    rfl
  · rw [Function.update_of_ne hi, coursesOf, coursesOf, List.getElem?_set_ne (Ne.symm hi), hmarks i hi]

/-! ## Steps -/

/-- What happens to the storages and to the packets under way. -/
inductive View.Step (engine : Extent.Engine ω) (addresses : List String) : View ω → View ω → Prop
  | rest {v v' : View ω} (hv : v' = v) : Step engine addresses v v'
  /-- A packet is read. -/
  | begins {v : View ω} {client : Nat} {p : Packet} (hidle : v.courses client = none)
      (hp : Relayable p) :
      Step engine addresses v (v.setCourse client (some ⟨p, .relaying, fun _ ↦ .untold⟩))
  /-- A follower is told of a packet. -/
  | tells {v : View ω} {client : Nat} {x : Course} {address : String}
      (hx : v.courses client = some x) (huntold : x.mark address = .untold) :
      Step engine addresses v
        (v.setCourse client (some { x with mark := Function.update x.mark address .told }))
  /-- A follower reads a packet and applies it. -/
  | hears {v : View ω} {client : Nat} {x : Course} {address : String} {answer : Packet × ω}
      (hx : v.courses client = some x) (htold : x.mark address = .told)
      (hanswer : applied engine x.packet (v.members address) = answer) :
      Step engine addresses v
        ((v.setMember address answer.2).setCourse client (some { x with
          mark := Function.update x.mark address (.heard (answer.1.header.result = .ok)) }))
  /-- The node applies a packet. -/
  | applies {v : View ω} {client : Nat} {x : Course} {answer : Packet × ω}
      (hx : v.courses client = some x) (hrelaying : x.progress = .relaying)
      (hanswer : applied engine x.packet v.store = answer) :
      Step engine addresses v
        ((v.setStore answer.2).setCourse client (some { x with
          progress := if answer.1.header.result = .ok then .applied else .leaving false }))
  /-- The replies to a packet have all been collected. -/
  | collects {v : View ω} {client : Nat} {x : Course} {ok : Bool}
      (hx : v.courses client = some x) (happlied : x.progress = .applied)
      (hheard : ∀ address ∈ addresses, ∃ accepted, x.mark address = .heard accepted) :
      Step engine addresses v (v.setCourse client (some { x with progress := .leaving ok }))
  /-- A packet is answered, with success only if all followers have accepted it. -/
  | leaves {v : View ω} {client : Nat} {x : Course} {ok : Bool} (hx : v.courses client = some x)
      (hleaving : x.progress = .leaving ok)
      (haccepted : ok = true → ∀ address ∈ addresses, x.mark address = .heard true) :
      Step engine addresses v (v.setCourse client none)

/-! ## Moves are steps -/

/-- A packet that is begun can be decoded and names all followers, each of them once, and followers work
with the engine. -/
def Move.Admissible (engine : Extent.Engine ω) (addresses : List String) : Move ω τ → Prop
  | .begins _ p => p.Decodable ∧ ∀ followers, Request.parseFollowers p = .ok followers →
      followers.Perm addresses
  | .answers _ turn => turn.env.engine = engine
  | .acts _ _ | .leaves _ => True

def relayFailed : Stage → Bool
  | .relaying relays => relays.any fun r ↦ match r.2 with
    | .settled _ fault => fault.isSome
    | _ => false
  | _ => false

/-- Without packets under way nothing has a course. -/
theorem Group.courses_of_idle {g : Group ω τ} (h : g.Idle) (marks : Nat → String → Mark)
    (client : Nat) : (g.view marks).courses client = none := by
  by_contra hne
  obtain ⟨x, hx⟩ := Option.ne_none_iff_exists'.mp hne
  obtain ⟨t, ht, -⟩ := exists_of_coursesOf_eq_some hx
  cases h _ (List.mem_of_getElem? ht)

theorem relayFailed_iff {relays : List (String × SendStage)} :
    relayFailed (.relaying relays) = true ↔
      ∃ r ∈ relays, ∃ link fault, r.2 = .settled link (some fault) := by
  rw [relayFailed, List.any_eq_true]
  refine exists_congr fun r ↦ and_congr_right fun _ ↦ ?_
  rcases r with ⟨_, _ | _ | _ | ⟨_, _ | _⟩⟩ <;> simp

namespace Group

def RelaysGoOn (g : Group ω τ) : Prop :=
  ∀ o ∈ g.clients, ∀ t ∈ o, relayFailed t.stage = false

/-- What a follower reads on a line that the node has closed leaves its storage as it is. -/
def LateIsVain (g : Group ω τ) (m : Move ω τ) (g' : Group ω τ) : Prop :=
  match m with
  | .answers number _ => ∀ line ∈ g.world.lines number, line.closed = true →
      (g'.world.members line.link.address).store = (g.world.members line.link.address).store
  | _ => True

instance (g : Group ω τ) : Decidable g.RelaysGoOn :=
  inferInstanceAs (Decidable (∀ o ∈ g.clients, ∀ t ∈ o, relayFailed t.stage = false))

instance [DecidableEq ω] (g : Group ω τ) (m : Move ω τ) (g' : Group ω τ) :
    Decidable (g.LateIsVain m g') :=
  match m with
  | .answers number _ => inferInstanceAs (Decidable (∀ line ∈ g.world.lines number,
      line.closed = true → (g'.world.members line.link.address).store =
        (g.world.members line.link.address).store))
  | .begins .. | .acts .. | .leaves .. => inferInstanceAs (Decidable True)

variable {env : Environment ω (World ω τ)} {g g' : Group ω τ} {client : Nat}
  {marks marks' : Nat → String → Mark} {addresses : List String}

/-- What is seen when no follower has done anything. -/
theorem view_set {o : Option Task} (hlength : client < g.clients.length)
    (hclients : g'.clients = g.clients.set client o) (hmembers : g'.world.members = g.world.members)
    (hmarks : ∀ i, i ≠ client → marks' i = marks i) :
    g'.view marks' = ((g.view marks).setStore g'.primary.store).setCourse client
      (o.map (·.course (marks' client))) := by
  simp only [view, hclients, hmembers, coursesOf_set hlength hmarks]
  rfl

/-- What is seen when a packet has come further at the node. -/
theorem view_put (hlength : client < g.clients.length) (t : Task)
    (s : Stage × Handling ω (World ω τ))
    (hmembers : (g.put client t s).world.members = g.world.members)
    (hmarks : ∀ i, i ≠ client → marks' i = marks i) :
    (g.put client t s).view marks' =
      ((g.view marks).setStore s.2.node.store).setCourse client
        (some ⟨t.packet, progressOf s.1, marks' client⟩) := by
  have hclients : (g.put client t s).clients =
    g.clients.set client (some { t with request := s.2.request, stage := s.1 }) := rfl
  exact view_set hlength hclients hmembers hmarks

/-- What is seen when a follower has read a packet. -/
theorem view_hear {w : World ω τ} {t : Task} (ht : g.clients[client]? = some (some t))
    {address : String} {store : ω} (hmembers : ∀ a, ((g.setWorld w).world.members a).store =
      if a = address then store else (g.world.members a).store) (mark : String → Mark) :
    (g.setWorld w).view (Function.update marks client mark) =
      ((g.view marks).setMember address store).setCourse client
        (some ⟨t.packet, progressOf t.stage, mark⟩) := by
  have hstores : (fun a ↦ ((g.setWorld w).world.members a).store) =
      Function.update (g.view marks).members address store := by
    funext a
    rw [hmembers a, Function.update_apply]
    rfl
  have hcourses : coursesOf (g.setWorld w).clients (Function.update marks client mark) =
      Function.update (coursesOf g.clients marks) client
        (some ⟨t.packet, progressOf t.stage, mark⟩) := by
    have hmarks (i : Nat) (hi : i ≠ client) : Function.update marks client mark i = marks i :=
      Function.update_of_ne hi mark marks
    have hset := coursesOf_set (List.getElem?_eq_some_iff.mp ht).1 hmarks (some t)
    rwa [Follower.set_of_getElem?_eq ht, Function.update_self] at hset
  simp only [view, hstores, hcourses]
  rfl

theorem settled_ne_of_relaysGoOn (h : g.RelaysGoOn) {t : Task} {relays : List (String × SendStage)}
    (ht : g.clients[client]? = some (some t)) (hstage : t.stage = .relaying relays) :
    ∀ r ∈ relays, ∀ link fault, r.2 ≠ .settled link (some fault) := by
  intro r hr link fault hsettled
  have hsound := h _ (List.mem_of_getElem? ht) t rfl
  rw [hstage, relayFailed_iff.mpr ⟨r, hr, link, fault, hsettled⟩] at hsound
  cases hsound

/-- An act of the node is a step of the view. -/
theorem Tracked.step_acts (haddresses : addresses.Nodup) (henv : env.network = network)
    (h : g.Tracked addresses marks) {a : Act} (hs : g.step env (.acts client a) = some g')
    (hsound : g'.RelaysGoOn) :
    ∃ marks', g'.Tracked addresses marks' ∧
      View.Step env.engine addresses (g.view marks) (g'.view marks') := by
  obtain ⟨t, s, ht, hready, hact, rfl⟩ := Group.step_acts hs
  have hlength := (List.getElem?_eq_some_iff.mp ht).1
  have hself : (g.put client t s).clients[client]? =
      some (some { t with request := s.2.request, stage := s.1 }) := List.getElem?_set_self hlength
  have hcourse : (g.view marks).courses client =
      some ⟨t.packet, progressOf t.stage, marks client⟩ := coursesOf_eq_some ht
  cases hstage : t.stage with
  | relaying relays =>
    rw [hstage] at hact hcourse
    cases a with
    | exchange i =>
      obtain rfl := Option.some.inj hact
      obtain ⟨mark, htracked, hmembers, hmark⟩ := h.relay (i := i) haddresses henv ht hstage
        (settled_ne_of_relaysGoOn hsound hself rfl)
      have hmarks (i : Nat) (hi : i ≠ client) : Function.update marks client mark i = marks i :=
        Function.update_of_ne hi mark marks
      refine ⟨_, htracked, ?_⟩
      rw [view_put hlength t _ ?_ hmarks, Function.update_self]
      · rcases hmark with rfl | ⟨address, huntold, rfl⟩
        · exact .rest (View.setCourse_eq_self _ _ _ hcourse)
        · exact .tells hcourse huntold
      · exact hmembers
    | proceed =>
      simp only [Handling.act] at hact
      split at hact
      · rename_i hsettled
        obtain rfl := Option.some.inj hact
        obtain ⟨htracked, hmembers, hstore, hcases⟩ := h.sent env ht hstage hsettled
        have hstore : ((g.handling t).sent env relays).2.node.store = _ := hstore
        have hprogress : progressOf ((g.handling t).sent env relays).1 =
            if (applied env.engine t.packet g.primary.store).1.header.result = .ok then .applied
            else .leaving false := by
          rcases hcases with ⟨hok, replies, hs⟩ | ⟨hok, hs⟩
          · rw [if_pos hok, hs]
            rfl
          · rw [if_neg hok, hs]
            rfl
        refine ⟨marks, htracked, ?_⟩
        rw [view_put hlength t _ hmembers fun _ _ ↦ rfl, hstore, hprogress]
        exact .applies hcourse rfl rfl
      · cases hact
  | collecting replies =>
    rw [hstage] at hact hcourse
    cases a with
    | exchange i =>
      obtain rfl := Option.some.inj hact
      obtain ⟨htracked, hmembers⟩ := h.collect haddresses henv ht hstage hready
      refine ⟨marks, htracked, ?_⟩
      rw [view_put hlength t _ ?_ fun _ _ ↦ rfl]
      · exact .rest (View.setCourse_eq_self _ _ _ hcourse)
      · exact hmembers
    | proceed =>
      simp only [Handling.act] at hact
      split at hact
      · rename_i hsettled
        obtain rfl := Option.some.inj hact
        obtain ⟨htracked, hmembers, hstore, ⟨ok, hok⟩, hheard⟩ := h.received ht hstage hsettled
        have hstore : ((g.handling t).received replies).2.node.store = _ := hstore
        refine ⟨marks, htracked, ?_⟩
        rw [view_put hlength t _ hmembers fun _ _ ↦ rfl, hstore, hok]
        exact .collects hcourse rfl hheard
      · cases hact
  | leaving ok =>
    rw [hstage] at hact
    cases hact

/-- A packet that is read is a step of the view. -/
theorem Tracked.step_begins (h : g.Tracked addresses marks) {p : Packet}
    (hs : g.step env (.begins client p) = some g')
    (hadmissible : (Move.begins client p : Move ω τ).Admissible env.engine addresses) :
    ∃ marks', g'.Tracked addresses marks' ∧
      View.Step env.engine addresses (g.view marks) (g'.view marks') := by
  obtain ⟨hidle, followers, buffers, -, hparse, hmaster, hforward, rfl⟩ := Group.step_begins hs
  have hlength := (List.getElem?_eq_some_iff.mp hidle).1
  have hp : Relayable p := ⟨hadmissible.1, hmaster, Handling.streamsReply_of_isForward hforward⟩
  have hcourse : (g.view marks).courses client = none := by simp [view, coursesOf, hidle]
  have hmarks (i : Nat) (hi : i ≠ client) :
      Function.update marks client (fun _ ↦ .untold) i = marks i := Function.update_of_ne hi _ _
  refine ⟨_, h.begin hidle hp (hadmissible.2 followers hparse) buffers, ?_⟩
  change View.Step _ _ _ (view _ (g.put client _ _))
  rw [view_put hlength _ _ rfl hmarks, Function.update_self]
  exact .begins hcourse hp

/-- A packet that is answered is a step of the view. -/
theorem Tracked.step_leaves (henv : env.network = network) (h : g.Tracked addresses marks)
    (hs : g.step env (.leaves client) = some g') :
    g'.Tracked addresses marks ∧
      View.Step env.engine addresses (g.view marks) (g'.view marks) := by
  obtain ⟨t, ok, ht, hstage, rfl⟩ := Group.step_leaves hs
  have hlength := (List.getElem?_eq_some_iff.mp ht).1
  have hcourse : (g.view marks).courses client =
      some ⟨t.packet, progressOf t.stage, marks client⟩ := coursesOf_eq_some ht
  rw [hstage] at hcourse
  obtain ⟨htracked, hmembers, hstore, haccepted⟩ := h.leave henv ht hstage
  refine ⟨htracked, ?_⟩
  rw [view_set hlength rfl hmembers fun _ _ ↦ rfl, hstore]
  exact .leaves hcourse rfl haccepted

/-- What a follower reads is a step of the view, if nothing happens on lines that the node has closed. -/
theorem Tracked.step_answers (haddresses : addresses.Nodup) (h : g.Tracked addresses marks)
    {number : Nat} {turn : Turn ω τ} (hengine : turn.env.engine = env.engine)
    (hlate : g.LateIsVain (.answers number turn) (g.setWorld (g.world.answer number turn))) :
    ∃ marks', (g.setWorld (g.world.answer number turn)).Tracked addresses marks' ∧
      View.Step env.engine addresses (g.view marks)
        ((g.setWorld (g.world.answer number turn)).view marks') := by
  rcases World.answer_cases number turn g.world with
    hsame | ⟨line, -, -, hline, -, hnonempty, -⟩
  · rw [hsame]
    exact ⟨marks, h, .rest rfl⟩
  cases hclosed : line.closed with
  | true =>
    obtain ⟨htracked, hmembers⟩ := h.hearLate hline hclosed turn
    refine ⟨marks, htracked, .rest ?_⟩
    have hstores (a : String) : ((g.setWorld (g.world.answer number turn)).world.members a).store =
        (g.world.members a).store := by
      by_cases ha : a = line.link.address
      · rw [ha]
        exact hlate line hline hclosed
      · rw [hmembers a ha]
    simp only [view, hstores]
    rfl
  | false =>
    obtain ⟨client, t, ht, x, hx, hnumber, hlink, htold, hframe⟩ :=
      h.unread number line hline hclosed hnonempty
    have hcourse : (g.view marks).courses client =
        some ⟨t.packet, progressOf t.stage, marks client⟩ := coursesOf_eq_some ht
    rcases h.hear haddresses ht hx hnumber hline hlink htold hframe turn with
      hsame | ⟨htracked, hmembers⟩
    · rw [hsame]
      exact ⟨marks, h, .rest rfl⟩
    · rw [hengine] at htracked hmembers
      refine ⟨_, htracked, ?_⟩
      rw [view_hear ht hmembers]
      exact .hears hcourse htold rfl

/-- Nothing is under way in a group that has done nothing. -/
theorem tracked_idle {store : ω} {limits : Follower.LinkLimits} {buffers : BufferPool}
    {collector : Latency.Collector} {w : World ω τ} (hlines : ∀ number, w.lines number = none)
    (hstill : w.Still) (n : Nat) :
    (idle (.idle store limits buffers collector w) n).Tracked addresses marks := by
  have hheld : (idle (Node.idle store limits buffers collector w) n).held = [] :=
    List.flatMap_eq_nil_iff.mpr fun o ho ↦ by
      rw [List.eq_of_mem_replicate ho]
      rfl
  refine ⟨?_, hstill, fun client t ht ↦ ?_, fun number line hline ↦ ?_, fun number line hline ↦ ?_⟩
  · rw [hheld]
    exact (Reachable.started store limits buffers collector hlines).atRest
  · cases List.eq_of_mem_replicate (List.mem_of_getElem? ht)
  · cases (hlines number).symm.trans hline
  · cases (hlines number).symm.trans hline

/-- A move of a group in which no relay fails is a step of the view, if nothing happens on lines that the
node has closed. -/
theorem Tracked.step (haddresses : addresses.Nodup) (henv : env.network = network)
    (h : g.Tracked addresses marks) {m : Move ω τ} (hm : m.Admissible env.engine addresses)
    (hs : g.step env m = some g') (hsound : g'.RelaysGoOn) (hlate : g.LateIsVain m g') :
    ∃ marks', g'.Tracked addresses marks' ∧
      View.Step env.engine addresses (g.view marks) (g'.view marks') := by
  cases m with
  | begins client p => exact h.step_begins hs hm
  | acts client a => exact h.step_acts haddresses henv hs hsound
  | leaves client => exact ⟨marks, h.step_leaves henv hs⟩
  | answers number turn =>
    obtain rfl := Option.some.inj hs
    exact h.step_answers haddresses hm hlate

end Group

/-! ## A node with one follower -/

/-- The fate in which nothing goes wrong and followers only act by moves. -/
def stillFate : Fate Extent.Store Unit :=
  { Fate.kind (Node.environment {} .unreachable 0) with turn := none }

/-- A node for `n` clients among followers that only act by moves, all with the same storage. -/
def stillGroup (store : Extent.Store) (n : Nat) : Group Extent.Store Unit :=
  let member {σ : Type} (network : σ) : Node Extent.Store σ :=
    .idle store ⟨2, 2, 1⟩ (.filled 0 0) .disabled network
  .idle (member (.ofMembers (fun _ ↦ member ()) stillFate)) n

/-- How the follower answers in full. -/
def wholeTurn : Turn Extent.Store Unit :=
  ⟨Node.environment {} .unreachable 0, none, ⟨.brokenPipe, "peer closed"⟩⟩

/-- The moves by which the node opens a link to a follower and relays a packet on it. -/
def relayMoves (client : Nat) : List (Move Extent.Store Unit) :=
  [.acts client (.exchange 0), .acts client (.exchange 0)]

/-- A packet that can be read and names the followers may be begun. -/
theorem admissible_begins {p : Packet} {addresses : List String} (client : Nat) (pool : BufferPool)
    (hdecode : (Packet.decode pool (.ofBytes p.frame)).1 = .ok p)
    (hparse : Request.parseFollowers p = .ok addresses) :
    (Move.begins client p : Move Extent.Store Unit).Admissible Extent.Store.engine addresses := by
  refine ⟨Packet.decodable_of_decode hdecode, fun followers hfollowers ↦ ?_⟩
  obtain rfl := Except.ok.inj (hparse.symm.trans hfollowers)
  exact .refl _

end ReplicaChain.Cluster
