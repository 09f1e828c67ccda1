import ReplicaChain.Proofs.Node.SideBySide

/-!
# What is counted and timed for every packet

However the connections of a node take turns, and on whatever path a packet leaves it, the packet is counted
as received once, is in flight from the time it is read until its response is written or could not be, and has
one timer, which is stopped once and under the key of the request.

Everything between the start of a timer and its end leaves the counts and the collector alone.  So each step
does one of four things to them, and the accounts follow from these by induction over the run.
-/

namespace ReplicaChain

open Latency (Channel Collector Sample)
open Wire (Packet)

variable {ω σ : Type}

/-! ## What happened -/

namespace Occurrence

def reads (events : List Occurrence) : List Packet :=
  events.filterMap fun | read p => some p | _ => none

/-- The packets whose response was written, or could not be. -/
def answers (events : List Occurrence) : List Packet :=
  events.filterMap fun | answered p => some p | _ => none

def stops (events : List Occurrence) : List String :=
  events.filterMap fun | stopped key => some key | _ => none

def publishes (events : List Occurrence) : List Sample :=
  events.filterMap fun | published sample => some sample | _ => none

end Occurrence

/-! ## Steps of a packet -/

namespace Handling

variable {env : Environment ω σ} {x y : Handling ω σ} {task task' : Task}

/-- The handling has the counts, the collector and the timer that another one has. -/
structure KeepsLedger (x y : Handling ω σ) : Prop where
  ledger_eq : y.node.ledger = x.node.ledger
  timer_eq : y.request.timer = x.request.timer

theorem KeepsLedger.trans {z : Handling ω σ} (h : x.KeepsLedger y) (h' : y.KeepsLedger z) : x.KeepsLedger z :=
  ⟨h'.ledger_eq.trans h.ledger_eq, h'.timer_eq.trans h.timer_eq⟩

theorem keepsLedger_resolved (addresses : List String) (x : Handling ω σ) :
    x.KeepsLedger (x.resolved addresses) := ⟨rfl, rfl⟩

theorem keepsLedger_perform (env : Environment ω σ) (x : Handling ω σ) : x.KeepsLedger (x.perform env).2 :=
  ⟨ledger_perform env x, by rw [request_perform]⟩

theorem keepsLedger_operate (env : Environment ω σ) (x : Handling ω σ) : x.KeepsLedger (x.operate env).2 := by
  refine ⟨ledger_operate env x, ?_⟩
  have hperform := request_perform env x
  rcases operate_cases env x with ⟨fault, h⟩ | ⟨a, h⟩ | ⟨a, h⟩ <;> rw [h, ← hperform]
  · rfl
  · unfold stream
    dsimp only
    split <;> rfl
  · rfl

/-- A packet that needs no follower is refused or applied. -/
theorem keepsLedger_process_of_local (hlocal : ∀ addresses, ¬ x.Relays addresses) :
    x.KeepsLedger (x.process env).2 := by
  rcases hm : x.request.isMasterCommand with _ | _
  · rcases hparse : Request.parseFollowers x.request.packet with fault | addresses
    · rw [process_of_parse_error hm hparse]
      exact ⟨rfl, rfl⟩
    · have hforward : (x.resolved addresses).request.isForward = false :=
        Bool.eq_false_iff.mpr fun h ↦ hlocal addresses ⟨hm, hparse, h⟩
      rw [process_of_parse_ok hm hparse, processResolved_of_local hforward]
      exact (keepsLedger_resolved addresses x).trans (keepsLedger_operate env (x.resolved addresses))
  · rw [process_of_isMasterCommand hm]
    exact keepsLedger_operate env x

theorem keepsLedger_settleExchange (action : Fault → Wire.Action)
    (results : List (Option Follower.Link × Option Fault)) (f : Follower.Forwarder σ)
    (x : Handling ω σ) : x.KeepsLedger (x.settleExchange action results f).2 := by
  unfold settleExchange
  split <;> exact ⟨rfl, rfl⟩

theorem keepsLedger_sent (env : Environment ω σ) (relays : List (String × Follower.SendStage))
    (x : Handling ω σ) : x.KeepsLedger (x.sent env relays).2 := by
  have hsettle := keepsLedger_settleExchange (fun _ ↦ .sendToFollowers)
    (relays.map (Follower.Sending.result ·.2)) x.node.forwarder x
  unfold sent
  split
  · rename_i h
    rwa [h] at hsettle
  · rename_i y h
    rw [h] at hsettle
    dsimp only
    split <;> exact hsettle.trans (keepsLedger_operate env y)

theorem keepsLedger_act {s s' : Stage} {a : Act} (h : act env (s, x) a = some (s', y)) : x.KeepsLedger y := by
  unfold act at h
  dsimp only at h
  split at h
  · obtain ⟨-, rfl⟩ := Prod.mk.inj (Option.some.inj h)
    exact ⟨rfl, rfl⟩
  · rename_i relays
    split at h
    · have hsent := keepsLedger_sent env relays x
      rwa [Option.some.inj h] at hsent
    · cases h
  · obtain ⟨-, rfl⟩ := Prod.mk.inj (Option.some.inj h)
    exact ⟨rfl, rfl⟩
  · rename_i replies
    split at h
    · have hreceived := keepsLedger_settleExchange receiveAction
        (replies.map (Follower.Receiving.result ·.2)) x.node.forwarder x
      obtain ⟨-, rfl⟩ := Prod.mk.inj (Option.some.inj h)
      exact hreceived
    · cases h
  · cases h

/-- Between the start of its timer and the end of it, a packet leaves what is counted and timed alone. -/
theorem Advances.keepsLedger (h : Advances env task x task' y) :
    x.KeepsLedger y ∧ task.isTimed = false ∧ task'.isTimed = false := by
  cases h with
  | alone hlocal => exact ⟨keepsLedger_process_of_local hlocal, rfl, rfl⟩
  | acts h => exact ⟨keepsLedger_act h, rfl, rfl⟩
  | streams h =>
    obtain ⟨-, -, addresses, -, hperform⟩ := h
    have hkeeps := keepsLedger_perform env (x.resolved addresses)
    rw [hperform] at hkeeps
    exact ⟨(keepsLedger_resolved addresses x).trans hkeeps, rfl, rfl⟩
  | _ => exact ⟨⟨rfl, rfl⟩, rfl, rfl⟩

theorem depart_eq {fault result : Option Fault} {p : Packet} (h : x.depart fault p = (result, y)) :
    y.node.shutdown = x.node.shutdown.finish ∧ y.node.packetsReceived = x.node.packetsReceived ∧
      y.node.collector = x.node.collector := by
  obtain ⟨-, rfl⟩ := Prod.mk.inj h
  cases fault with
  | some fault => exact ⟨rfl, rfl, rfl⟩
  | none =>
    rw [← Node.node_reply x]
    rcases x.reply with ⟨_ | fault, z⟩ <;> exact ⟨rfl, rfl, rfl⟩

end Handling

/-! ## Steps of a connection -/

namespace Connection

variable {cluster : String} {n m : Node ω σ} {c c' : Connection} {e : Option Occurrence}

/-- The packet that was read and is not answered yet. -/
def inHand (c : Connection) : Option Packet :=
  match c.progress with
  | .handling p _ _ => some p
  | _ => none

def running (c : Connection) : Option Packet :=
  match c.progress with
  | .handling p _ task => if task.isTimed then none else some p
  | _ => none

/-- The timer of the packet in hand is the one that was started for it, unless it was stopped. -/
def HasTimer (cluster : String) (reports : Bool) (c : Connection) : Prop :=
  ∀ p r task, c.progress = .handling p r task →
    r.timer = if task.isTimed then none else some ⟨Request.timerKey cluster p, reports⟩

theorem hasTimer_of_inHand_eq_none {reports : Bool} (h : c.inHand = none) :
    c.HasTimer cluster reports := by
  intro p r task hc
  rw [inHand, hc] at h
  cases h

/-- What a step of a connection does to what is counted and timed. -/
inductive Accounts (cluster : String) (n : Node ω σ) (c : Connection) :
    Option Occurrence → Node ω σ → Connection → Prop
  | quiet {m : Node ω σ} {c' : Connection} (hledger : m.ledger = n.ledger)
      (hhand : c'.inHand = c.inHand) (hrunning : c'.running = c.running) :
      Accounts cluster n c none m c'
  | read {m : Node ω σ} {c' : Connection} {p : Packet} (hidle : c.inHand = none ∧ c.running = none)
      (hbegun : c'.inHand = some p ∧ c'.running = some p)
      (hshutdown : m.shutdown = n.shutdown.begin)
      (hreceived : m.packetsReceived = n.packetsReceived + 1)
      (hcollector : m.collector = (n.collector.start (Request.timerKey cluster p)).2) :
      Accounts cluster n c (some (.read p)) m c'
  | stopped {m : Node ω σ} {c' : Connection} {p : Packet} {elapsed : Latency.Duration}
      (hhand : c'.inHand = c.inHand) (hrunning : c.running = some p) (hstopped : c'.running = none)
      (hcounts : m.shutdown = n.shutdown ∧ m.packetsReceived = n.packetsReceived)
      (hcollector : m.collector =
        n.collector.stop ⟨Request.timerKey cluster p, n.collector.isEnabled⟩ elapsed) :
      Accounts cluster n c (some (.stopped (Request.timerKey cluster p))) m c'
  | answered {m : Node ω σ} {c' : Connection} {p : Packet} (hhand : c.inHand = some p)
      (hrunning : c.running = none) (hfree : c'.inHand = none ∧ c'.running = none)
      (hshutdown : m.shutdown = n.shutdown.finish)
      (hkept : m.packetsReceived = n.packetsReceived ∧ m.collector = n.collector) :
      Accounts cluster n c (some (.answered p)) m c'

theorem Step.accounts (h : c.Step cluster n e m c') (hc : c.HasTimer cluster n.collector.isEnabled) :
    Accounts cluster n c e m c' ∧ c'.HasTimer cluster n.collector.isEnabled := by
  cases h with
  | @reads s rest k p buffers x hd hx =>
    subst hx
    refine ⟨.read ⟨rfl, rfl⟩ ⟨rfl, rfl⟩ rfl rfl rfl, ?_⟩
    rintro p r task ⟨⟩
    rfl
  | ends hd => exact ⟨.quiet rfl rfl rfl, hasTimer_of_inHand_eq_none rfl⟩
  | @advances s k p r task task' y env h =>
    obtain ⟨hkeeps, htask, htask'⟩ := h.keepsLedger
    refine ⟨.quiet hkeeps.ledger_eq rfl (by simp [running, htask, htask']), ?_⟩
    rintro p r task ⟨⟩
    rw [hkeeps.timer_eq, htask', hc _ _ _ rfl, htask]
  | @stops s k p r fault x elapsed hx =>
    have htimer : r.timer = some ⟨Request.timerKey cluster p, n.collector.isEnabled⟩ := hc _ _ _ rfl
    subst hx
    simp only [Handling.stopTimer, htimer]
    refine ⟨.stopped rfl rfl rfl ⟨rfl, rfl⟩ rfl, ?_⟩
    rintro p r task ⟨⟩
    rfl
  | @departs s k p r fault result x hx =>
    obtain ⟨hshutdown, hreceived, hcollector⟩ := Handling.depart_eq hx
    have hfree : (Connection.mk s x.client
        (result.elim .reading fun fault ↦ .ended (some fault))).inHand = none ∧
          (Connection.mk s x.client
            (result.elim .reading fun fault ↦ .ended (some fault))).running = none := by
      cases result <;> exact ⟨rfl, rfl⟩
    exact ⟨.answered rfl rfl hfree hshutdown ⟨hreceived, hcollector⟩,
      hasTimer_of_inHand_eq_none hfree.1⟩

end Connection

/-! ## The collector -/

namespace Latency

variable {c₀ c : Channel} {events : List Occurrence} {key : String} {elapsed : Duration} {s : Sample}

/-- The timers that were stopped since a queue was `c₀`: their samples were published, are queued, or found
the queue full and were counted as dropped. -/
def Channel.Holds (c₀ : Channel) (events : List Occurrence) (c : Channel) : Prop :=
  ∃ lost : List String,
    (c₀.queued.toList.map Sample.key ++ Occurrence.stops events).Perm
      ((Occurrence.publishes events ++ c.queued.toList).map Sample.key ++ lost) ∧
    c.dropped = c₀.dropped + lost.length

theorem Channel.holds_self (c : Channel) : c.Holds [] c :=
  ⟨[], by simp [Occurrence.stops, Occurrence.publishes], rfl⟩

/-- The number of senders plays no role. -/
theorem Channel.Holds.of_eq {c' : Channel} (h : c₀.Holds events c) (hqueued : c'.queued = c.queued)
    (hdropped : c'.dropped = c.dropped) : c₀.Holds events c' := by
  unfold Channel.Holds at h ⊢
  rwa [hqueued, hdropped]

theorem Channel.Holds.offer (h : c₀.Holds events c) (elapsed : Duration) :
    c₀.Holds (events ++ [.stopped key]) (c.offer ⟨key, elapsed⟩) := by
  obtain ⟨lost, hperm, hdropped⟩ := h
  have hstops : Occurrence.stops (events ++ [.stopped key]) = Occurrence.stops events ++ [key] := by
    simp [Occurrence.stops]
  have hpublishes : Occurrence.publishes (events ++ [.stopped key]) = Occurrence.publishes events := by
    simp [Occurrence.publishes]
  unfold Channel.Holds
  rw [hstops, hpublishes, ← List.append_assoc]
  unfold Channel.offer
  split
  · refine ⟨lost, (hperm.append_right [key]).trans ?_, hdropped⟩
    simp only [Backlog.toList_push, List.map_append, List.map_cons, List.map_nil, List.append_assoc]
    exact ((List.perm_append_singleton key lost).append_left _).append_left _
  · refine ⟨lost ++ [key], ?_, ?_⟩
    · rw [← List.append_assoc]
      exact hperm.append_right [key]
    · simp only [List.length_append, List.length_singleton]
      omega

theorem Channel.Holds.step (h : c₀.Holds events c) :
    c₀.Holds (events ++ (((c.queued.pop?).map Prod.fst).map Occurrence.published).toList) c.step := by
  obtain ⟨lost, hperm, hdropped⟩ := h
  unfold Channel.step
  cases hpop : c.queued.pop? with
  | none =>
    dsimp only
    refine Channel.Holds.of_eq (c := c) ⟨lost, by simpa using hperm, hdropped⟩ ?_ ?_ <;> split <;> rfl
  | some popped =>
    obtain ⟨s, rest⟩ := popped
    have hqueue := Backlog.toList_of_pop? hpop
    refine ⟨lost, ?_, hdropped⟩
    simpa [Occurrence.stops, Occurrence.publishes, hqueue] using hperm

/-- Only timers that are stopped and samples that are published matter. -/
theorem Channel.Holds.of_events {events' : List Occurrence} (h : c₀.Holds events c)
    (hstops : Occurrence.stops events' = Occurrence.stops events)
    (hpublishes : Occurrence.publishes events' = Occurrence.publishes events) : c₀.Holds events' c := by
  unfold Channel.Holds at h ⊢
  rwa [hstops, hpublishes]

namespace Collector

variable {c₀ c : Collector}

/-- A collector is enabled if it was so, and then its queue accounts for the timers that were stopped. -/
structure Holds (c₀ : Collector) (events : List Occurrence) (c : Collector) : Prop where
  isEnabled_eq : c.isEnabled = c₀.isEnabled
  channel : ∀ q₀, c₀.channel = some q₀ → ∃ q, c.channel = some q ∧ q₀.Holds events q

theorem holds_self (c : Collector) : c.Holds [] c :=
  ⟨rfl, fun q hq ↦ ⟨q, hq, q.holds_self⟩⟩

theorem Holds.of_events {events' : List Occurrence} (h : c₀.Holds events c)
    (hstops : Occurrence.stops events' = Occurrence.stops events)
    (hpublishes : Occurrence.publishes events' = Occurrence.publishes events) : c₀.Holds events' c := by
  refine ⟨h.isEnabled_eq, fun q₀ hq₀ ↦ ?_⟩
  obtain ⟨q, hq, hholds⟩ := h.channel q₀ hq₀
  exact ⟨q, hq, hholds.of_events hstops hpublishes⟩

theorem Holds.start (h : c₀.Holds events c) (key : String) : c₀.Holds events (c.start key).2 := by
  refine ⟨by simpa [Collector.start, isEnabled] using h.isEnabled_eq, fun q₀ hq₀ ↦ ?_⟩
  obtain ⟨q, hq, hholds⟩ := h.channel q₀ hq₀
  exact ⟨q.join, by simp [Collector.start, hq], hholds.of_eq rfl rfl⟩

theorem Holds.stop (h : c₀.Holds events c) (key : String) (elapsed : Duration) :
    c₀.Holds (events ++ [.stopped key]) (c.stop ⟨key, c.isEnabled⟩ elapsed) := by
  refine ⟨?_, fun q₀ hq₀ ↦ ?_⟩
  · rw [← h.isEnabled_eq]
    cases hc : c.channel <;> simp [Collector.stop, isEnabled, hc]
  · obtain ⟨q, hq, hholds⟩ := h.channel q₀ hq₀
    refine ⟨(q.offer ⟨key, elapsed⟩).leave, by simp [Collector.stop, isEnabled, hq], ?_⟩
    exact (hholds.offer elapsed).of_eq rfl rfl

theorem Holds.step (h : c₀.Holds events c) :
    c₀.Holds (events ++ (c.next?.map Occurrence.published).toList) c.step := by
  refine ⟨by simpa [Collector.step, isEnabled] using h.isEnabled_eq, fun q₀ hq₀ ↦ ?_⟩
  obtain ⟨q, hq, hholds⟩ := h.channel q₀ hq₀
  refine ⟨q.step, by simp [Collector.step, hq], ?_⟩
  rw [next?, hq, Option.bind_some]
  exact hholds.step

end Collector

end Latency

/-! ## Runs -/

namespace Service

variable {cluster : String} {n m : Node ω σ} {w w' : Service ω σ} {events : List Occurrence}

def inHand (w : Service ω σ) : List Packet :=
  w.connections.filterMap Connection.inHand

def running (w : Service ω σ) : List Packet :=
  w.connections.filterMap Connection.running

def HasEnded (w : Service ω σ) : Prop :=
  ∀ c ∈ w.connections, ∃ fault, c.progress = .ended fault

/-- What is counted and timed agrees with what happened since a node was `n`. -/
structure Balanced (cluster : String) (n : Node ω σ) (events : List Occurrence) (w : Service ω σ) :
    Prop where
  inFlight_eq : w.node.shutdown.inFlight = n.shutdown.inFlight + .ofNat w.inHand.length
  received_eq : w.node.packetsReceived = n.packetsReceived + (Occurrence.reads events).length
  answered_perm : (Occurrence.reads events).Perm (Occurrence.answers events ++ w.inHand)
  stopped_perm : ((Occurrence.reads events).map (Request.timerKey cluster)).Perm
    (Occurrence.stops events ++ w.running.map (Request.timerKey cluster))
  hasTimer : ∀ c ∈ w.connections, c.HasTimer cluster w.node.collector.isEnabled
  holds : n.collector.Holds events w.node.collector

theorem balanced_start (cluster : String) (n : Node ω σ) : Balanced cluster n [] ⟨n, []⟩ where
  inFlight_eq := (UInt64.add_zero _).symm
  received_eq := rfl
  answered_perm := .nil
  stopped_perm := .nil
  hasTimer := by simp
  holds := n.collector.holds_self

section

variable {before rest : List Connection} {c c' : Connection} {e : Option Occurrence}

theorem inHand_eq (n : Node ω σ) (before rest : List Connection) (c : Connection) :
    inHand ⟨n, before ++ c :: rest⟩ = before.filterMap Connection.inHand ++
      (c.inHand.toList ++ rest.filterMap Connection.inHand) := by
  cases h : c.inHand <;> simp [inHand, h]

theorem running_eq (n : Node ω σ) (before rest : List Connection) (c : Connection) :
    running ⟨n, before ++ c :: rest⟩ = before.filterMap Connection.running ++
      (c.running.toList ++ rest.filterMap Connection.running) := by
  cases h : c.running <;> simp [running, h]

/-- The counts follow the packet that a connection reads, times or answers. -/
theorem Balanced.counts (h : Balanced cluster n events ⟨m, before ++ c :: rest⟩) {m' : Node ω σ}
    (hc : Connection.Accounts cluster m c e m' c') :
    m'.shutdown.inFlight = n.shutdown.inFlight +
        .ofNat (inHand (⟨m', before ++ c' :: rest⟩ : Service ω σ)).length ∧
      m'.packetsReceived = n.packetsReceived + (Occurrence.reads (events ++ e.toList)).length ∧
      n.collector.Holds (events ++ e.toList) m'.collector := by
  have hflight := h.inFlight_eq
  have hreceived := h.received_eq
  have hholds := h.holds
  rw [inHand_eq] at hflight ⊢
  cases hc with
  | quiet hledger hhand hrunning =>
    obtain ⟨hcollector, hshutdown, hcount⟩ : m'.collector = m.collector ∧ m'.shutdown = m.shutdown ∧
        m'.packetsReceived = m.packetsReceived := by simpa [Node.ledger] using hledger
    rw [hshutdown, hcount, hcollector, hhand]
    exact ⟨hflight, by simpa using hreceived, by simpa using hholds⟩
  | @read _ _ p hidle hbegun hshutdown hcount hcollector =>
    rw [hshutdown, hcount, hcollector, hbegun.1]
    refine ⟨?_, ?_,
      (hholds.start _).of_events (by simp [Occurrence.stops]) (by simp [Occurrence.publishes])⟩
    · rw [Shutdown.begin, hflight, hidle.1]
      simp [UInt64.ofNat_add, UInt64.add_assoc]
    · simp only [Occurrence.reads] at hreceived ⊢
      simp [hreceived, Nat.add_assoc]
  | @stopped _ _ p elapsed hhand hrunning hstopped hcounts hcollector =>
    rw [hcounts.1, hcounts.2, hcollector, hhand]
    exact ⟨hflight, by simpa [Occurrence.reads] using hreceived, hholds.stop _ _⟩
  | @answered _ _ p hhand hrunning hfree hshutdown hkept =>
    rw [hshutdown, hkept.1, hkept.2, hfree.1]
    refine ⟨?_, by simpa [Occurrence.reads] using hreceived,
      hholds.of_events (by simp [Occurrence.stops]) (by simp [Occurrence.publishes])⟩
    rw [Shutdown.finish, hflight, hhand]
    simp [UInt64.ofNat_add, ← UInt64.add_assoc]

/-- A packet that is read joins those in hand. -/
theorem perm_joined {α : Type} {all done left right : List α} (h : all.Perm (done ++ (left ++ right)))
    (a : α) : (all ++ [a]).Perm (done ++ (left ++ a :: right)) := by
  refine (List.perm_append_singleton a all).trans ((h.cons a).trans ?_)
  rw [← List.append_assoc, ← List.append_assoc]
  exact List.perm_middle.symm

/-- A packet that is done with leaves those in hand. -/
theorem perm_left {α : Type} {all done left right : List α} {a : α}
    (h : all.Perm (done ++ (left ++ a :: right))) : all.Perm (done ++ [a] ++ (left ++ right)) := by
  refine h.trans ?_
  rw [List.append_assoc]
  exact List.perm_middle.append_left done

/-- The packets that were read are those that are answered and those in hand, and each of them has a timer
that runs or was stopped. -/
theorem Balanced.perms (h : Balanced cluster n events ⟨m, before ++ c :: rest⟩) {m' : Node ω σ}
    (hc : Connection.Accounts cluster m c e m' c') :
    let w' : Service ω σ := ⟨m', before ++ c' :: rest⟩
    (Occurrence.reads (events ++ e.toList)).Perm (Occurrence.answers (events ++ e.toList) ++ w'.inHand) ∧
      ((Occurrence.reads (events ++ e.toList)).map (Request.timerKey cluster)).Perm
        (Occurrence.stops (events ++ e.toList) ++ w'.running.map (Request.timerKey cluster)) := by
  intro w'
  have hanswered := h.answered_perm
  have hstopped := h.stopped_perm
  simp only [w', inHand_eq, running_eq, List.map_append] at hanswered hstopped ⊢
  cases hc with
  | quiet hledger hhand hrunning =>
    rw [hhand, hrunning]
    simpa using ⟨hanswered, hstopped⟩
  | @read _ _ p hidle hbegun =>
    rw [hidle.1] at hanswered
    rw [hidle.2] at hstopped
    rw [hbegun.1, hbegun.2]
    exact ⟨by simpa [Occurrence.reads, Occurrence.answers] using perm_joined hanswered p,
      by simpa [Occurrence.reads, Occurrence.stops] using perm_joined hstopped (Request.timerKey cluster p)⟩
  | @stopped _ _ p elapsed hhand hrunning hstop =>
    rw [hrunning] at hstopped
    rw [hhand, hstop]
    exact ⟨by simpa [Occurrence.reads, Occurrence.answers] using hanswered,
      by simpa [Occurrence.reads, Occurrence.stops] using perm_left hstopped⟩
  | @answered _ _ p hhand hrunning hfree =>
    rw [hhand] at hanswered
    rw [hrunning] at hstopped
    rw [hfree.1, hfree.2]
    exact ⟨by simpa [Occurrence.reads, Occurrence.answers] using perm_left hanswered,
      by simpa [Occurrence.reads, Occurrence.stops] using hstopped⟩

theorem Balanced.moves (h : Balanced cluster n events w) (hw : w.connections = before ++ c :: rest)
    {m' : Node ω σ} (hstep : c.Step cluster w.node e m' c') :
    Balanced cluster n (events ++ e.toList) ⟨m', before ++ c' :: rest⟩ := by
  obtain ⟨m, connections⟩ := w
  obtain rfl : connections = before ++ c :: rest := hw
  obtain ⟨hc, htimer⟩ := hstep.accounts (h.hasTimer c (by simp))
  obtain ⟨hflight, hreceived, hholds⟩ := h.counts hc
  obtain ⟨hanswered, hstopped⟩ := h.perms hc
  have hreports : m'.collector.isEnabled = m.collector.isEnabled :=
    hholds.isEnabled_eq.trans h.holds.isEnabled_eq.symm
  refine ⟨hflight, hreceived, hanswered, hstopped, fun d hd ↦ ?_, hholds⟩
  rw [hreports]
  rcases List.mem_append.mp hd with hbefore | hd
  · exact h.hasTimer d (by simp [hbefore])
  · rcases List.mem_cons.mp hd with rfl | hrest
    · exact htimer
    · exact h.hasTimer d (by simp [hrest])

end

theorem Balanced.step {e : Option Occurrence} (h : Balanced cluster n events w)
    (hstep : Step cluster w e w') : Balanced cluster n (events ++ e.toList) w' := by
  cases hstep with
  | opens s k =>
    rw [Option.toList_none, List.append_nil]
    refine ⟨h.inFlight_eq, h.received_eq, h.answered_perm, h.stopped_perm, ?_, h.holds⟩
    exact List.forall_mem_cons.mpr ⟨Connection.hasTimer_of_inHand_eq_none rfl, h.hasTimer⟩
  | moves hw hstep => exact h.moves hw hstep
  | publishes =>
    -- A sample is neither a packet nor a timer.
    obtain ⟨hreads, hanswers, hstops⟩ :
        let events' := events ++ (w.node.collector.next?.map .published).toList
        Occurrence.reads events' = Occurrence.reads events ∧
          Occurrence.answers events' = Occurrence.answers events ∧
          Occurrence.stops events' = Occurrence.stops events := by
      cases w.node.collector.next? <;>
        simp [Occurrence.reads, Occurrence.answers, Occurrence.stops]
    have hholds := h.holds.step
    refine ⟨h.inFlight_eq, hreads ▸ h.received_eq, hreads ▸ hanswers ▸ h.answered_perm,
      hreads ▸ hstops ▸ h.stopped_perm, ?_, hholds⟩
    intro c hc
    have hreports : w.node.collector.step.isEnabled = w.node.collector.isEnabled :=
      hholds.isEnabled_eq.trans h.holds.isEnabled_eq.symm
    exact hreports ▸ h.hasTimer c hc
  | elsewhere store forwarder unseen failed =>
    rw [Option.toList_none, List.append_nil]
    exact ⟨h.inFlight_eq, h.received_eq, h.answered_perm, h.stopped_perm, h.hasTimer, h.holds⟩

theorem HasEnded.inHand_eq (h : w.HasEnded) : w.inHand = [] := by
  refine List.filterMap_eq_nil_iff.mpr fun c hc ↦ ?_
  obtain ⟨fault, hended⟩ := h c hc
  rw [Connection.inHand, hended]

end Service

end ReplicaChain
