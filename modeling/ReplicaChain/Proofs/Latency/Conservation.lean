import ReplicaChain.Latency.Collector
import ReplicaChain.Proofs.Latency.Publishing

/-!
# Conservation of samples

Timers start and stop while the publishing task runs now and then, and the collector may be closed before
its timers are stopped.  A sample that the queue accepts stays in the order of acceptance: those that were
published, and after them those that are queued, are all that was accepted.  A queue that is full drops the
sample and counts it.  Each running timer counts as a sender, and so does the collector until it is closed,
so that the task never ends while a sample may still come.
-/

namespace ReplicaChain.Latency

/-! ## Backends -/

namespace Backend

def publishAll (samples : List Sample) (b : Backend) : Backend :=
  samples.foldl (fun b s ↦ b.publish s) b

theorem publishAll_append (samples samples' : List Sample) (b : Backend) :
    b.publishAll (samples ++ samples') = (b.publishAll samples).publishAll samples' :=
  List.foldl_append

theorem publishAll_tracing (samples earlier : List Sample) :
    (tracing earlier).publishAll samples = tracing (earlier ++ samples) := by
  induction samples generalizing earlier with
  | nil => rw [List.append_nil, publishAll, List.foldl_nil]
  | cons s samples ih =>
    calc (tracing earlier).publishAll (s :: samples)
      _ = (tracing (earlier ++ [s])).publishAll samples := rfl
      _ = tracing (earlier ++ [s] ++ samples) := ih (earlier ++ [s])
      _ = tracing (earlier ++ s :: samples) := by rw [List.append_assoc, List.singleton_append]

theorem publishAll_histogram (samples : List Sample) (r : Registry) :
    (histogram r).publishAll samples = histogram (samples.foldl (fun r s ↦ r.publish s) r) := by
  induction samples generalizing r with
  | nil => rfl
  | cons s samples ih => exact ih (r.publish s)

end Backend

/-- Every backend was handed the same samples in the same order.  One that traces has traced them after
what it had traced before, and one that keeps histograms has published each of them, so that one that
began without any has for every key the histogram of the samples of that key. -/
structure Handed (samples : List Sample) (before after : List Backend) : Prop where
  eq_map : after = before.map (Backend.publishAll samples)
  trace : ∀ (i : Nat) earlier, before[i]? = some (.tracing earlier) →
    after[i]? = some (.tracing (earlier ++ samples))
  registry : ∀ (i : Nat) r, before[i]? = some (.histogram r) →
    after[i]? = some (.histogram (samples.foldl (fun r s ↦ r.publish s) r))
  histograms : ∀ i : Nat, before[i]? = some (.histogram .empty) →
    ∃ r, after[i]? = some (.histogram r) ∧ ∀ key, r.snapshot key =
      if (∃ s ∈ samples, s.key = key) then some (.ofList (Publishing.durations key samples)) else none

theorem handed_publishAll (samples : List Sample) (backends : List Backend) :
    Handed samples backends (backends.map (Backend.publishAll samples)) := by
  have hafter {i : Nat} {b : Backend} (h : backends[i]? = some b) :
      (backends.map (Backend.publishAll samples))[i]? = some (b.publishAll samples) := by
    rw [List.getElem?_map, h, Option.map_some]
  have hregistry (i : Nat) (r : Registry) (h : backends[i]? = some (.histogram r)) :
      (backends.map (Backend.publishAll samples))[i]? =
        some (.histogram (samples.foldl (fun r s ↦ r.publish s) r)) := by
    rw [hafter h, Backend.publishAll_histogram]
  exact {
    eq_map := rfl
    trace := fun i earlier h ↦ by rw [hafter h, Backend.publishAll_tracing]
    registry := hregistry
    histograms := fun i h ↦ ⟨_, hregistry i .empty h, Publishing.snapshot_foldl_publish samples⟩ }

/-! ## The queue -/

namespace Channel

theorem offer_of_lt {q : Channel} (s : Sample) (h : q.queued.size < q.capacity) :
    q.offer s = { q with queued := q.queued.push s } :=
  if_pos h

theorem offer_of_not_lt {q : Channel} (s : Sample) (h : ¬ q.queued.size < q.capacity) :
    q.offer s = { q with dropped := q.dropped + 1 } :=
  if_neg h

/-- The task publishes from the front of the queue, and ends when it finds the queue empty and nobody left
who may send.  How many may send and how many samples were dropped is not its concern. -/
structure Worked (n : Nat) (q q' : Channel) : Prop where
  capacity_eq : q'.capacity = q.capacity
  senders_eq : q'.senders = q.senders
  dropped_eq : q'.dropped = q.dropped
  queued_eq : q'.queued.toList = q.queued.toList.drop n
  backends_eq : q'.backends = q.backends.map (Backend.publishAll (q.queued.toList.take n))
  ended_iff : q'.ended = true ↔ q.ended = true ∨ q.senders = 0 ∧ q.queued.toList.length < n

theorem worked_zero (q : Channel) : Worked 0 q q :=
  ⟨rfl, rfl, rfl, rfl, (List.map_id' _).symm, by simp⟩

theorem worked_step (q : Channel) : Worked 1 q q.step := by
  cases h : q.queued.pop? with
  | some popped =>
    obtain ⟨s, rest⟩ := popped
    have hlist := Backlog.toList_of_pop? h
    rw [step, h]
    exact ⟨rfl, rfl, rfl, by simp [hlist], by simp [hlist, Backend.publishAll], by simp [hlist]⟩
  | none =>
    have hlist := Backlog.pop?_eq_none_iff.mp h
    have hnothing : q.backends = q.backends.map (Backend.publishAll (q.queued.toList.take 1)) := by
      rw [hlist]
      exact (List.map_id' _).symm
    rw [step, h]
    by_cases hsenders : q.senders = 0
    · rw [if_pos hsenders]
      exact ⟨rfl, rfl, rfl, by simp [hlist], hnothing, by simp [hlist, hsenders]⟩
    · rw [if_neg hsenders]
      exact ⟨rfl, rfl, rfl, by simp [hlist], hnothing, by simp [hsenders]⟩

theorem Worked.trans {n n' : Nat} {q q' q'' : Channel} (h : Worked n q q') (h' : Worked n' q' q'') :
    Worked (n + n') q q'' where
  capacity_eq := h'.capacity_eq.trans h.capacity_eq
  senders_eq := h'.senders_eq.trans h.senders_eq
  dropped_eq := h'.dropped_eq.trans h.dropped_eq
  queued_eq := by rw [h'.queued_eq, h.queued_eq, List.drop_drop]
  backends_eq := by
    rw [h'.backends_eq, h.backends_eq, h.queued_eq, List.map_map, List.take_add]
    exact List.map_congr_left fun b _ ↦ (Backend.publishAll_append _ _ b).symm
  ended_iff := by
    rw [h'.ended_iff, h.ended_iff, h.senders_eq, h.queued_eq, List.length_drop]
    grind

theorem worked_steps (n : Nat) (q : Channel) : Worked n q (q.steps n) := by
  induction n generalizing q with
  | zero => exact worked_zero q
  | succ n ih =>
    have h := (worked_step q).trans (ih q.step)
    rwa [Nat.add_comm 1 n] at h

end Channel

namespace Collector

def queued (c : Collector) : List Sample :=
  c.channel.elim [] (·.queued.toList)

def work (n : Nat) (c : Collector) : Collector :=
  { c with channel := c.channel.map (Channel.steps n) }

end Collector

/-! ## Measurements -/

/-- What happens to a collector and its timers.  A running timer is told by its place among all. -/
inductive Event where
  | start (key : String)
  | stop (i : Nat) (elapsed : Duration)
  | forget (i : Nat)
  /-- The task takes some steps and is then interrupted. -/
  | work (n : Nat)
  /-- The task runs until it has to wait. -/
  | flush
  | close

structure Measurement where
  collector : Collector
  running : List Timer
  /-- The samples of the timers that were stopped so far, without those that were counted as dropped.  It
  decides nothing. -/
  accepted : List Sample

namespace Measurement

/-- An enabled collector before any timer. -/
def begun (capacity : Nat) (backends : List Backend) : Measurement :=
  ⟨.enabled capacity backends, [], []⟩

def stop (t : Timer) (i : Nat) (elapsed : Duration) (m : Measurement) : Measurement :=
  let c := m.collector.stop t elapsed
  { collector := c
    running := m.running.eraseIdx i
    accepted :=
      if c.dropped = m.collector.dropped then m.accepted ++ [⟨t.key, elapsed⟩] else m.accepted }

def step (m : Measurement) : Event → Measurement
  | .start key =>
    -- A collector that was closed is gone, and nobody can start a timer of it.
    if m.collector.isOpen then
      { m with
        collector := (m.collector.start key).2, running := m.running ++ [(m.collector.start key).1] }
    else m
  | .stop i elapsed => (m.running[i]?).elim m fun t ↦ m.stop t i elapsed
  | .forget i => (m.running[i]?).elim m fun t ↦
    { m with collector := m.collector.forget t, running := m.running.eraseIdx i }
  | .work n => { m with collector := m.collector.work n }
  | .flush => { m with collector := m.collector.flush }
  | .close => { m with collector := m.collector.close }

def run (events : List Event) (m : Measurement) : Measurement :=
  events.foldl step m

variable {capacity : Nat} {backends : List Backend} {m : Measurement} {q : Channel}

/-- Everything that was accepted was published or is queued, and every running timer, and the collector
while it is open, is a sender. -/
structure Conserved (capacity : Nat) (backends : List Backend) (m : Measurement) (q : Channel) :
    Prop where
  channel_eq : m.collector.channel = some q
  capacity_eq : q.capacity = max capacity 1
  size_le : q.queued.toList.length ≤ q.capacity
  senders_eq : q.senders = m.running.length + if m.collector.isOpen then 1 else 0
  reports : ∀ t ∈ m.running, t.reports = true
  published : ∃ published, q.backends = backends.map (Backend.publishAll published) ∧
    published ++ q.queued.toList = m.accepted
  ended : q.ended = true → q.senders = 0 ∧ q.queued.toList = []

theorem conserved_begun (capacity : Nat) (backends : List Backend) :
    (begun capacity backends).Conserved capacity backends (.opened capacity backends) where
  channel_eq := rfl
  capacity_eq := rfl
  size_le := Nat.zero_le _
  senders_eq := rfl
  reports := fun t ht ↦ absurd ht List.not_mem_nil
  published := ⟨[], (List.map_id' backends).symm, rfl⟩
  ended := fun h ↦ by cases h

theorem Conserved.start_eq (h : m.Conserved capacity backends q)
    (hopen : m.collector.isOpen = true) (key : String) :
    m.step (.start key) =
      ⟨{ m.collector with channel := some q.join }, m.running ++ [⟨key, true⟩], m.accepted⟩ := by
  rw [step, if_pos hopen, Collector.start, Collector.isEnabled, h.channel_eq]
  rfl

theorem Conserved.start (h : m.Conserved capacity backends q) (hopen : m.collector.isOpen = true)
    (key : String) : (m.step (.start key)).Conserved capacity backends q.join := by
  rw [h.start_eq hopen]
  refine ⟨rfl, h.capacity_eq, h.size_le, ?_, ?_, h.published, fun hended ↦ ?_⟩
  · have hsenders := h.senders_eq
    rw [if_pos hopen] at hsenders ⊢
    rw [List.length_append, List.length_singleton, Channel.join, hsenders]
  · simpa [or_imp, forall_and] using h.reports
  · have hsenders := h.senders_eq
    rw [(h.ended hended).1, if_pos hopen] at hsenders
    omega

/-- A timer that runs no more is no sender any more. -/
theorem Conserved.senders_eraseIdx (h : m.Conserved capacity backends q) {i : Nat} {t : Timer}
    (hi : m.running[i]? = some t) :
    q.senders - 1 = (m.running.eraseIdx i).length + if m.collector.isOpen then 1 else 0 := by
  obtain ⟨hlt, -⟩ := List.getElem?_eq_some_iff.mp hi
  rw [h.senders_eq, List.length_eraseIdx_of_lt hlt]
  omega

theorem Conserved.forget_eq (h : m.Conserved capacity backends q) {i : Nat} {t : Timer}
    (hi : m.running[i]? = some t) :
    m.step (.forget i) =
      ⟨{ m.collector with channel := some q.leave }, m.running.eraseIdx i, m.accepted⟩ := by
  rw [step, hi, Option.elim_some, Collector.forget,
    if_pos (h.reports t (List.mem_of_getElem? hi)), h.channel_eq]
  rfl

theorem Conserved.forget (h : m.Conserved capacity backends q) {i : Nat} {t : Timer}
    (hi : m.running[i]? = some t) :
    (m.step (.forget i)).Conserved capacity backends q.leave := by
  rw [h.forget_eq hi]
  refine ⟨rfl, h.capacity_eq, h.size_le, h.senders_eraseIdx hi,
    fun t ht ↦ h.reports t (List.mem_of_mem_eraseIdx ht), h.published, fun hended ↦ ?_⟩
  obtain ⟨hsenders, hqueued⟩ := h.ended hended
  exact ⟨by rw [Channel.leave, hsenders], hqueued⟩

/-- A timer that is stopped offers its sample and is gone. -/
theorem Conserved.stop_eq (h : m.Conserved capacity backends q) {i : Nat} {t : Timer}
    (hi : m.running[i]? = some t) (elapsed : Duration) :
    m.step (.stop i elapsed) =
      { collector := { m.collector with channel := some (q.offer ⟨t.key, elapsed⟩).leave }
        running := m.running.eraseIdx i
        accepted := if (q.offer ⟨t.key, elapsed⟩).dropped = q.dropped then
          m.accepted ++ [⟨t.key, elapsed⟩] else m.accepted } := by
  have hstop : m.collector.stop t elapsed =
      { m.collector with channel := some (q.offer ⟨t.key, elapsed⟩).leave } := by
    rw [Collector.stop, if_pos (h.reports t (List.mem_of_getElem? hi)), h.channel_eq]
    rfl
  rw [Measurement.step, hi, Option.elim_some, Measurement.stop, hstop]
  simp only [Collector.dropped, h.channel_eq, Option.elim_some, Channel.leave]

/-- A sample that finds room is the last of the queue and the last that was accepted. -/
theorem Conserved.stop_of_room (h : m.Conserved capacity backends q) {i : Nat} {t : Timer}
    (hi : m.running[i]? = some t) (elapsed : Duration)
    (hroom : q.queued.toList.length ≠ max capacity 1) :
    m.step (.stop i elapsed) =
      { collector :=
          { m.collector with
            channel := some { q with
              queued := q.queued.push ⟨t.key, elapsed⟩, senders := q.senders - 1 } }
        running := m.running.eraseIdx i
        accepted := m.accepted ++ [⟨t.key, elapsed⟩] } := by
  have hsize := h.size_le
  have hlt : q.queued.size < q.capacity := by
    rw [Backlog.size_eq_length]
    rw [h.capacity_eq] at hsize ⊢
    omega
  rw [h.stop_eq hi, Channel.offer_of_lt _ hlt, if_pos rfl]
  rfl

/-- A sample that finds the queue full is dropped and counted. -/
theorem Conserved.stop_of_full (h : m.Conserved capacity backends q) {i : Nat} {t : Timer}
    (hi : m.running[i]? = some t) (elapsed : Duration)
    (hfull : q.queued.toList.length = max capacity 1) :
    m.step (.stop i elapsed) =
      { collector :=
          { m.collector with
            channel := some { q with dropped := q.dropped + 1, senders := q.senders - 1 } }
        running := m.running.eraseIdx i
        accepted := m.accepted } := by
  have hnot : ¬ q.queued.size < q.capacity := by
    rw [Backlog.size_eq_length, hfull, h.capacity_eq]
    exact Nat.lt_irrefl _
  rw [h.stop_eq hi, Channel.offer_of_not_lt _ hnot, if_neg (Nat.succ_ne_self _)]
  rfl

theorem Conserved.exists_stop (h : m.Conserved capacity backends q) {i : Nat} {t : Timer}
    (hi : m.running[i]? = some t) (elapsed : Duration) :
    ∃ q', (m.step (.stop i elapsed)).Conserved capacity backends q' := by
  have hreports (t : Timer) (ht : t ∈ m.running.eraseIdx i) : t.reports = true :=
    h.reports t (List.mem_of_mem_eraseIdx ht)
  -- The task has not ended, since the timer could still send.
  have hnotended : q.ended ≠ true := fun hended ↦ by
    have hsenders := h.senders_eq
    have hlt := (List.getElem?_eq_some_iff.mp hi).1
    rw [(h.ended hended).1] at hsenders
    omega
  by_cases hfull : q.queued.toList.length = max capacity 1
  · rw [h.stop_of_full hi elapsed hfull]
    exact ⟨_, rfl, h.capacity_eq, h.size_le, h.senders_eraseIdx hi, hreports, h.published,
      fun hended ↦ absurd hended hnotended⟩
  · rw [h.stop_of_room hi elapsed hfull]
    have hsize := h.size_le
    obtain ⟨published, hbackends, haccepted⟩ := h.published
    refine ⟨_, rfl, h.capacity_eq, ?_, h.senders_eraseIdx hi, hreports, ⟨published, hbackends, ?_⟩,
      fun hended ↦ absurd hended hnotended⟩
    · rw [h.capacity_eq] at hsize ⊢
      rw [Backlog.toList_push, List.length_append, List.length_singleton]
      omega
    · rw [Backlog.toList_push, ← List.append_assoc, haccepted]

/-- The task publishes what was accepted first. -/
theorem Conserved.worked (h : m.Conserved capacity backends q) {n : Nat} {q' : Channel}
    (hq : Channel.Worked n q q') :
    ({ m with collector := { m.collector with channel := some q' } }).Conserved capacity backends
      q' := by
  obtain ⟨published, hbackends, haccepted⟩ := h.published
  refine ⟨rfl, hq.capacity_eq.trans h.capacity_eq, ?_, hq.senders_eq.trans h.senders_eq, h.reports,
    ⟨published ++ q.queued.toList.take n, ?_, ?_⟩, fun hended ↦ ?_⟩
  · rw [hq.queued_eq, hq.capacity_eq]
    exact Nat.le_trans (List.drop_sublist n _).length_le h.size_le
  · rw [hq.backends_eq, hbackends, List.map_map]
    exact List.map_congr_left fun b _ ↦ (Backend.publishAll_append _ _ b).symm
  · rw [hq.queued_eq, List.append_assoc, List.take_append_drop, haccepted]
  · rw [hq.senders_eq, hq.queued_eq]
    rcases hq.ended_iff.mp hended with hold | ⟨hsenders, hlength⟩
    · obtain ⟨hsenders, hqueued⟩ := h.ended hold
      exact ⟨hsenders, by rw [hqueued, List.drop_nil]⟩
    · exact ⟨hsenders, List.drop_of_length_le (Nat.le_of_lt hlength)⟩

theorem Conserved.close_eq (h : m.Conserved capacity backends q)
    (hopen : m.collector.isOpen = true) :
    m.step .close = { m with collector := ⟨some q.leave, false⟩ } := by
  rw [step, Collector.close, if_pos hopen, h.channel_eq]
  rfl

theorem step_close_of_closed (hclosed : ¬ m.collector.isOpen = true) : m.step .close = m := by
  rw [step, Collector.close, if_neg hclosed]

theorem Conserved.close (h : m.Conserved capacity backends q) (hopen : m.collector.isOpen = true) :
    (m.step .close).Conserved capacity backends q.leave := by
  rw [h.close_eq hopen]
  refine ⟨rfl, h.capacity_eq, h.size_le, ?_, h.reports, h.published, fun hended ↦ ?_⟩
  · rw [Channel.leave, h.senders_eq, if_pos hopen]
    rfl
  · have hsenders := h.senders_eq
    rw [(h.ended hended).1, if_pos hopen] at hsenders
    omega

theorem Conserved.work_eq (h : m.Conserved capacity backends q) (n : Nat) :
    m.step (.work n) =
      { m with collector := { m.collector with channel := some (q.steps n) } } := by
  rw [Measurement.step, Collector.work, h.channel_eq]
  rfl

theorem Conserved.flush_eq (h : m.Conserved capacity backends q) :
    m.step .flush = m.step (.work (q.queued.toList.length + 1)) := by
  rw [h.work_eq, Measurement.step, Collector.flush, h.channel_eq, ← Backlog.size_eq_length]
  rfl

theorem Conserved.work (h : m.Conserved capacity backends q) (n : Nat) :
    (m.step (.work n)).Conserved capacity backends (q.steps n) :=
  h.work_eq n ▸ h.worked (Channel.worked_steps n q)

theorem Conserved.exists_step (h : m.Conserved capacity backends q) (e : Event) :
    ∃ q', (m.step e).Conserved capacity backends q' := by
  cases e with
  | start key =>
    by_cases hopen : m.collector.isOpen = true
    · exact ⟨_, h.start hopen key⟩
    · rw [step, if_neg hopen]
      exact ⟨q, h⟩
  | stop i elapsed =>
    cases hi : m.running[i]? with
    | some t => exact h.exists_stop hi elapsed
    | none =>
      rw [step, hi]
      exact ⟨q, h⟩
  | forget i =>
    cases hi : m.running[i]? with
    | some t => exact ⟨_, h.forget hi⟩
    | none =>
      rw [step, hi]
      exact ⟨q, h⟩
  | work n => exact ⟨_, h.work n⟩
  | flush =>
    rw [h.flush_eq]
    exact ⟨_, h.work _⟩
  | close =>
    by_cases hopen : m.collector.isOpen = true
    · exact ⟨_, h.close hopen⟩
    · rw [step_close_of_closed hopen]
      exact ⟨q, h⟩

theorem Conserved.exists_run (h : m.Conserved capacity backends q) (events : List Event) :
    ∃ q', (m.run events).Conserved capacity backends q' := by
  induction events generalizing m q with
  | nil => exact ⟨q, h⟩
  | cons e events ih =>
    obtain ⟨q', h'⟩ := h.exists_step e
    exact ih h'

/-! ## What is observed -/

/-- No sample was accepted, published or dropped from one moment to the other. -/
def SameSamples (m m' : Measurement) : Prop :=
  m'.collector.queued = m.collector.queued ∧ m'.collector.backends = m.collector.backends ∧
    m'.collector.dropped = m.collector.dropped ∧ m'.accepted = m.accepted

theorem SameSamples.refl (m : Measurement) : SameSamples m m :=
  ⟨rfl, rfl, rfl, rfl⟩

theorem Conserved.queued_eq (h : m.Conserved capacity backends q) :
    m.collector.queued = q.queued.toList := by
  rw [Collector.queued, h.channel_eq]
  rfl

theorem Conserved.backends_eq (h : m.Conserved capacity backends q) :
    m.collector.backends = q.backends := by
  rw [Collector.backends, h.channel_eq]
  rfl

theorem Conserved.dropped_eq (h : m.Conserved capacity backends q) :
    m.collector.dropped = q.dropped := by
  rw [Collector.dropped, h.channel_eq]
  rfl

theorem Conserved.hasEnded_iff (h : m.Conserved capacity backends q) :
    m.collector.hasEnded = some true ↔ q.ended = true := by
  rw [Collector.hasEnded, h.channel_eq, Option.map_some, Option.some.injEq]

/-- Nobody can send any more when the collector is closed and no timer runs. -/
theorem Conserved.senders_eq_zero_iff (h : m.Conserved capacity backends q) :
    q.senders = 0 ↔ m.collector.isOpen = false ∧ m.running = [] := by
  rw [h.senders_eq, ← List.length_eq_zero_iff]
  cases m.collector.isOpen <;> simp

/-- Who may send is no matter of the samples. -/
theorem Conserved.sameSamples_of_senders {m' : Measurement} {n : Nat}
    (h : m.Conserved capacity backends q)
    (h' : m'.Conserved capacity backends { q with senders := n }) (haccepted : m'.accepted = m.accepted) :
    SameSamples m m' :=
  ⟨h'.queued_eq.trans h.queued_eq.symm, h'.backends_eq.trans h.backends_eq.symm,
    h'.dropped_eq.trans h.dropped_eq.symm, haccepted⟩

theorem Conserved.sameSamples_start (h : m.Conserved capacity backends q) (key : String) :
    SameSamples m (m.step (.start key)) := by
  by_cases hopen : m.collector.isOpen = true
  · exact h.sameSamples_of_senders (h.start hopen key) (h.start_eq hopen key ▸ rfl)
  · rw [step, if_neg hopen]
    exact .refl m

theorem Conserved.sameSamples_forget (h : m.Conserved capacity backends q) (i : Nat) :
    SameSamples m (m.step (.forget i)) := by
  cases hi : m.running[i]? with
  | some t => exact h.sameSamples_of_senders (h.forget hi) (h.forget_eq hi ▸ rfl)
  | none =>
    rw [step, hi]
    exact .refl m

theorem Conserved.sameSamples_close (h : m.Conserved capacity backends q) :
    SameSamples m (m.step .close) := by
  by_cases hopen : m.collector.isOpen = true
  · exact h.sameSamples_of_senders (h.close hopen) rfl
  · rw [step_close_of_closed hopen]
    exact .refl m

/-- An enabled collector, whatever happens to it and its timers and whenever its task runs, publishes to
every backend, each once and in order, the samples that it accepted, less those that are still queued.  A
timer that is stopped adds its sample to the queue, also after the collector was closed, or finds the queue
full and is counted as dropped; one that is started or forgotten adds nothing.  The task neither drops nor
accepts a sample, and if it is let run, it publishes all that was accepted.  It ends only when the collector
and all timers are gone and nothing is queued, and then it does end. -/
theorem samples_conserved (capacity : Nat) (backends : List Backend) (events : List Event) :
    let m := (begun capacity backends).run events
    (∃ published, Handed published backends m.collector.backends ∧
      published ++ m.collector.queued = m.accepted) ∧
    m.collector.queued.length ≤ max capacity 1 ∧
    (∀ i t elapsed, m.running[i]? = some t →
      let m' := m.step (.stop i elapsed)
      m'.running = m.running.eraseIdx i ∧
        if m.collector.queued.length = max capacity 1 then
          m'.collector.queued = m.collector.queued ∧ m'.accepted = m.accepted ∧
            m'.collector.dropped = m.collector.dropped + 1
        else
          m'.collector.queued = m.collector.queued ++ [⟨t.key, elapsed⟩] ∧
            m'.accepted = m.accepted ++ [⟨t.key, elapsed⟩] ∧
            m'.collector.dropped = m.collector.dropped) ∧
    (∀ key, SameSamples m (m.step (.start key))) ∧ (∀ i, SameSamples m (m.step (.forget i))) ∧
    (∀ n, (m.step (.work n)).accepted = m.accepted ∧
      (m.step (.work n)).collector.dropped = m.collector.dropped) ∧
    SameSamples m (m.step .close) ∧ (m.step .close).running = m.running ∧
    (m.collector.hasEnded = some true →
      m.collector.isOpen = false ∧ m.running = [] ∧ m.collector.queued = []) ∧
    let m' := m.step .flush
    m'.collector.queued = [] ∧
      Handed m.accepted backends m'.collector.backends ∧
      (m'.collector.hasEnded = some true ↔ m.collector.isOpen = false ∧ m.running = []) := by
  intro m
  obtain ⟨q, h⟩ := (conserved_begun capacity backends).exists_run events
  refine ⟨?_, ?_, fun i t elapsed hi ↦ ?_, h.sameSamples_start, h.sameSamples_forget,
    fun n ↦ ⟨rfl, ?_⟩, h.sameSamples_close, rfl, fun hended ↦ ?_, ?_⟩
  · obtain ⟨published, hbackends, haccepted⟩ := h.published
    refine ⟨published, ?_, h.queued_eq ▸ haccepted⟩
    rw [h.backends_eq, hbackends]
    exact handed_publishAll published backends
  · rw [h.queued_eq, ← h.capacity_eq]
    exact h.size_le
  · rw [h.queued_eq, h.dropped_eq]
    split
    · rename_i hfull
      rw [h.stop_of_full hi elapsed hfull]
      exact ⟨rfl, rfl, rfl, rfl⟩
    · rename_i hroom
      rw [h.stop_of_room hi elapsed hroom]
      exact ⟨rfl, Backlog.toList_push _ _, rfl, rfl⟩
  · rw [(h.work n).dropped_eq, (Channel.worked_steps n q).dropped_eq, h.dropped_eq]
  · obtain ⟨hsenders, hqueued⟩ := h.ended (h.hasEnded_iff.mp hended)
    obtain ⟨hclosed, hrunning⟩ := h.senders_eq_zero_iff.mp hsenders
    exact ⟨hclosed, hrunning, h.queued_eq.trans hqueued⟩
  · rw [h.flush_eq]
    have h' := h.work (q.queued.toList.length + 1)
    have hworked := Channel.worked_steps (q.queued.toList.length + 1) q
    have hqueued := hworked.queued_eq.trans (List.drop_of_length_le (Nat.le_succ _))
    refine ⟨h'.queued_eq.trans hqueued, ?_, ?_⟩
    · obtain ⟨published, hbackends, haccepted⟩ := h'.published
      rw [hqueued, List.append_nil] at haccepted
      have haccepted' : published = m.accepted := haccepted
      rw [h'.backends_eq, hbackends, haccepted']
      exact handed_publishAll m.accepted backends
    · rw [h'.hasEnded_iff, hworked.ended_iff, ← h.senders_eq_zero_iff]
      exact ⟨fun hended ↦ hended.elim (fun hold ↦ (h.ended hold).1) (·.1),
        fun hsenders ↦ .inr ⟨hsenders, Nat.lt_succ_self _⟩⟩

/-- A queue for one sample takes none while one is queued, and a timer that was started before the collector
was closed is published after it. -/
example :
    let m := (begun 0 [.tracing []]).run [.start "a", .start "b", .start "c", .stop 0 ⟨1⟩,
      .stop 0 ⟨2⟩, .close, .work 1, .stop 0 ⟨3⟩, .flush]
    m.collector.dropped = 1 ∧ m.collector.hasEnded = some true ∧
      m.collector.backends = [.tracing [⟨"a", ⟨1⟩⟩, ⟨"c", ⟨3⟩⟩]] :=
  ⟨rfl, rfl, rfl⟩

end Measurement

end ReplicaChain.Latency
