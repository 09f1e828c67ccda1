import Mathlib.Logic.Function.Basic
import Mathlib.Logic.Relation
import ReplicaChain.Proofs.Follower.Relay
import ReplicaChain.Proofs.Node.Observation

/-!
# Many nodes that relay to each other

The followers of a node are nodes themselves.  A client chooses which followers its packet names, so they may
be any nodes in any order, the one it addresses among them.  Every node handles any number of packets at the
same time, act by act.  What it writes for a follower may be read by any node, whole or cut off, later or
never, but only once.

For each packet that is read there is a job, and each job has the client's packet that is to blame for it as
its cause.  A frame that is written counts as a flight of the job that wrote it.  What else happens on a node
between the steps of its jobs is left open.
-/

namespace ReplicaChain.Cluster

open Follower (Link SendStage relayFrame)
open Handling (Act EndedAt Stage operations)
open Wire (Packet)

variable {ω σ : Type}

/-! ## Jobs and flights -/

/-- A frame that was written for a follower. -/
structure Flight where
  /-- The job that wrote it. -/
  sender : Nat
  cause : Nat
  /-- Which of the followers it was written for, if it was written by an exchange with one of them. -/
  entry : Option Nat
  link : Link
  bytes : ByteArray
  /-- Whether all of it was written. -/
  whole : Bool
  deriving DecidableEq

/-- What a reader may find on the link of a flight: a beginning of it, or all of it and more. -/
def Flight.Delivers (f : Flight) (s : Source) : Prop :=
  (∃ t, s.bytes ++ t = f.bytes) ∨ f.whole = true ∧ ∃ t, s.bytes = f.bytes ++ t

structure Errand where
  home : String
  packet : Packet
  /-- The flight that it was read from, unless it is from a client. -/
  origin : Option Nat
  /-- The client's packet because of which it was read, counted among all jobs. -/
  cause : Nat

inductive JobState where
  | arrived
  | under (stage : Stage)
  | ended

/-- A packet that a node handles. -/
structure Job extends Errand where
  request : Request
  progress : JobState
  /-- What was asked of the storage for it, the newest first. -/
  attempts : List Extent.Operation

/-- Nodes that relay to each other, with the jobs that they took up and the frames that they wrote. -/
structure Mesh (ω σ : Type) where
  nodes : String → Node (ω × List Extent.Operation) (σ × List Event)
  jobs : List Job
  flights : List Flight

namespace Mesh

def errands (m : Mesh ω σ) : List Errand :=
  m.jobs.map Job.toErrand

/-- A node goes on with a job, on records that are still empty. -/
def working (job : Job) (client : Sink) (m : Mesh ω σ) :
    Handling (ω × List Extent.Operation) (σ × List Event) :=
  let n := m.nodes job.home
  { request := job.request
    node := { n with
      store := (n.store.1, [])
      forwarder := { n.forwarder with network := (n.forwarder.network.1, []) } }
    client }

def sentBy (k : Nat) (job : Job) (entry : Option Nat)
    (y : Handling (ω × List Extent.Operation) (σ × List Event)) : List Flight :=
  y.node.forwarder.written.map fun w ↦ ⟨k, job.cause, entry, w.1, w.2.1, w.2.2⟩

def enroll (e : Errand) (x : Handling (ω × List Extent.Operation) (σ × List Event)) (m : Mesh ω σ) :
    Mesh ω σ where
  nodes := Function.update m.nodes e.home x.node
  jobs := m.jobs ++ [⟨e, x.request, .arrived, []⟩]
  flights := m.flights

/-- The mesh after a node worked on job `k`, with what it asked of its storage and wrote for a follower. -/
def note (k : Nat) (job : Job) (entry : Option Nat) (progress : JobState)
    (y : Handling (ω × List Extent.Operation) (σ × List Event)) (m : Mesh ω σ) : Mesh ω σ where
  nodes := Function.update m.nodes job.home y.node
  jobs := m.jobs.set k
    { job with request := y.request, progress, attempts := y.asked ++ job.attempts }
  flights := m.flights ++ sentBy k job entry y

def entryOf : Act → Option Nat
  | .exchange i => some i
  | .proceed => none

/-- The packet is read from a client, or from a flight that nobody has read before. -/
def Comes (m : Mesh ω σ) (s : Source) : Option Nat → Nat → Prop
  | none, cause => cause = m.jobs.length
  | some i, cause => (∀ job ∈ m.jobs, job.origin ≠ some i) ∧
      ∃ f, m.flights[i]? = some f ∧ f.Delivers s ∧ f.cause = cause

/-- A step of a mesh: a node reads a packet, or goes on with one, in any environment, or anything else
happens on the nodes. -/
inductive Step : Mesh ω σ → Mesh ω σ → Prop
  | drifts {m : Mesh ω σ} (nodes : String → Node (ω × List Extent.Operation) (σ × List Event)) :
      Step m { m with nodes }
  | arrives {m : Mesh ω σ} {s : Source} {e : Errand} (env : Environment ω σ) (pool : BufferPool)
      (client : Sink) (hread : (Packet.decode pool s).1 = .ok e.packet)
      (hcomes : m.Comes s e.origin e.cause) :
      Step m (m.enroll e ((m.nodes e.home).opening env.observed e.packet client))
  | departs {m : Mesh ω σ} {k : Nat} {job : Job} {addresses : List String} (client : Sink)
      (hjob : m.jobs[k]? = some job) (harrived : job.progress = .arrived)
      (hrelays : (m.working job client).Relays addresses) :
      Step m (m.note k job none (.under ((m.working job client).departing addresses).1)
        ((m.working job client).departing addresses).2)
  | serves {m : Mesh ω σ} {k : Nat} {job : Job} (env : Environment ω σ) (client : Sink)
      (hjob : m.jobs[k]? = some job) (harrived : job.progress = .arrived)
      (hlocal : ∀ addresses, ¬ (m.working job client).Relays addresses) :
      Step m (m.note k job none .ended ((m.working job client).process env.observed).2)
  | acts {m : Mesh ω σ} {k : Nat} {job : Job} {stage : Stage} {a : Act}
      {s : Stage × Handling (ω × List Extent.Operation) (σ × List Event)}
      (env : Environment ω σ) (client : Sink) (hjob : m.jobs[k]? = some job)
      (hunder : job.progress = .under stage)
      (hact : Handling.act env.observed (stage, m.working job client) a = some s) :
      Step m (m.note k job (entryOf a) (.under s.1) s.2)
  | leaves {m : Mesh ω σ} {k : Nat} {job : Job} {ok : Bool} (env : Environment ω σ) (client : Sink)
      (hjob : m.jobs[k]? = some job) (hunder : job.progress = .under (.leaving ok)) :
      Step m (m.note k job none .ended ((m.working job client).finish env.observed ok))

/-- A mesh comes about by steps from nodes that have not read anything. -/
inductive Reached : Mesh ω σ → Prop
  | start (nodes : String → Node (ω × List Extent.Operation) (σ × List Event)) :
      Reached ⟨nodes, [], []⟩
  | step {m m' : Mesh ω σ} (h : Reached m) (hstep : Step m m') : Reached m'

/-! ## What is known of jobs and flights -/

structure RelaysTo (addresses : List String) (p : Packet) : Prop where
  not_master : p.header.opcode.isMaster = false
  parse_eq : Request.parseFollowers p = .ok addresses
  isForward : (Request.ofPacket p).isForward = true

theorem relaysTo_of_relays {addresses : List String}
    {x : Handling (ω × List Extent.Operation) (σ × List Event)} (h : x.Relays addresses) :
    RelaysTo addresses x.request.packet :=
  ⟨h.not_master, h.parse_eq, h.isForward⟩

/-- The copy that followers get is not relayed any further. -/
theorem not_relaysTo_alone (addresses : List String) (p : Packet) :
    ¬ RelaysTo addresses p.alone := fun h ↦ by
  have := h.isForward
  simp [Request.isForward, Request.ofPacket, Packet.alone] at this

/-- What is known of a job at the different points of its progress. -/
inductive Course (flights : List Flight) (k : Nat) (job : Job) : Prop
  | arrived (hprogress : job.progress = .arrived) (hattempts : job.attempts = [])
      (hpacket : job.request.packet = job.packet) (hunsent : ∀ f ∈ flights, f.sender ≠ k)
  | relaying {relays : List (String × SendStage)} {addresses : List String}
      (hprogress : job.progress = .under (.relaying relays)) (hattempts : job.attempts = [])
      (hpacket : job.request.packet = job.packet) (hrelays : RelaysTo addresses job.packet)
      (hlength : relays.length = addresses.length)
      (hsent : ∀ f ∈ flights, f.sender = k → ∃ i, f.entry = some i ∧ EndedAt relays i)
  | beyond (harrived : job.progress ≠ .arrived)
      (hrelaying : ∀ relays, job.progress ≠ .under (.relaying relays))
      (hattempts : job.attempts.Sublist (operations job.packet))

/-- Only frames of the job itself matter to it. -/
theorem Course.append {flights more : List Flight} {k : Nat} {job : Job} (h : Course flights k job)
    (hmore : ∀ f ∈ more, f.sender ≠ k) : Course (flights ++ more) k job := by
  cases h with
  | arrived hprogress hattempts hpacket hunsent =>
    refine .arrived hprogress hattempts hpacket fun f hf ↦ ?_
    exact (List.mem_append.mp hf).elim (hunsent f) (hmore f)
  | relaying hprogress hattempts hpacket hrelays hlength hsent =>
    refine .relaying hprogress hattempts hpacket hrelays hlength fun f hf hk ↦ ?_
    exact (List.mem_append.mp hf).elim (hsent f · hk) fun hf ↦ absurd hk (hmore f hf)
  | beyond harrived hrelaying hattempts => exact .beyond harrived hrelaying hattempts

theorem Course.attempts_sublist {flights : List Flight} {k : Nat} {job : Job}
    (h : Course flights k job) : job.attempts.Sublist (operations job.packet) := by
  cases h with
  | arrived hprogress hattempts | relaying hprogress hattempts =>
    rw [hattempts]
    exact List.nil_sublist _
  | beyond harrived hrelaying hattempts => exact hattempts

/-- What is known of a flight: it is the copy of a packet that is to be relayed, for one of the followers
that the packet names. -/
structure Flown (errands : List Errand) (f : Flight) (e : Errand) (addresses : List String) (i : Nat) :
    Prop where
  sender : errands[f.sender]? = some e
  cause_eq : f.cause = e.cause
  relaysTo : RelaysTo addresses e.packet
  entry_eq : f.entry = some i
  entry_lt : i < addresses.length
  bytes_eq : f.bytes = relayFrame e.packet

/-- What holds of all meshes that come about. -/
structure Sound (m : Mesh ω σ) : Prop where
  decodable : ∀ e ∈ m.errands, e.packet.Decodable
  course : ∀ (k : Nat) (job : Job), m.jobs[k]? = some job → Course m.flights k job
  flown : ∀ f ∈ m.flights, ∃ e addresses i, Flown m.errands f e addresses i
  nodup : (m.flights.map fun f ↦ (f.sender, f.entry)).Nodup
  cause_eq : ∀ (k : Nat) (e : Errand), m.errands[k]? = some e → e.origin = none → e.cause = k
  read : ∀ e ∈ m.errands, ∀ i, e.origin = some i → ∃ f sender, m.flights[i]? = some f ∧
    e.cause = f.cause ∧ m.errands[f.sender]? = some sender ∧ e.packet = sender.packet.alone
  origins : (m.errands.map fun e : Errand ↦ (e.origin, e.cause)).Nodup

theorem sound_start (nodes : String → Node (ω × List Extent.Operation) (σ × List Event)) :
    Sound (⟨nodes, [], []⟩ : Mesh ω σ) where
  decodable := by simp [errands]
  course := by simp
  flown := by simp
  nodup := by simp
  cause_eq := by simp [errands]
  read := by simp [errands]
  origins := by simp [errands]

/-! ## Steps -/

/-- A packet that is read from a flight is the copy made for followers. -/
theorem packet_of_delivers {pool : BufferPool} {s : Source} {f : Flight} {p q : Packet}
    (hp : p.Decodable) (hf : f.bytes = relayFrame p) (hd : f.Delivers s)
    (hread : (Packet.decode pool s).1 = .ok q) : q = p.alone := by
  rcases hd with ⟨t, ht⟩ | ⟨-, t, ht⟩
  · have hextends : s.Extends t .closed (.ofBytes f.bytes) := ⟨by simp [ht], rfl⟩
    obtain ⟨rest, hdecode, -⟩ := Packet.decode_extends hextends (Prod.ext hread rfl)
    obtain ⟨_, _, halone, -⟩ := hp.decode_relayFrame pool (s := .ofBytes f.bytes) (t := .empty)
      (by simp [hf])
    exact Except.ok.inj (congrArg Prod.fst (hdecode.symm.trans halone))
  · obtain ⟨_, _, halone, -⟩ := hp.decode_relayFrame pool (hf ▸ ht)
    rw [halone] at hread
    exact (Except.ok.inj hread).symm

section Steps

variable {m m' : Mesh ω σ} {k : Nat} {job : Job}
  {x y : Handling (ω × List Extent.Operation) (σ × List Event)}

@[simp]
theorem errands_enroll (e : Errand) (x : Handling (ω × List Extent.Operation) (σ × List Event))
    (m : Mesh ω σ) : (m.enroll e x).errands = m.errands ++ [e] := by
  simp [errands, enroll]

theorem errands_of_job (hjob : m.jobs[k]? = some job) : m.errands[k]? = some job.toErrand := by
  rw [errands, List.getElem?_map, hjob]
  rfl

/-- Working on a job does not change what was read for it. -/
theorem errands_note (hjob : m.jobs[k]? = some job) (entry : Option Nat) (progress : JobState)
    (y : Handling (ω × List Extent.Operation) (σ × List Event)) :
    (m.note k job entry progress y).errands = m.errands :=
  Follower.map_set_of_getElem?_eq hjob rfl

theorem Flown.lt_length {errands : List Errand} {f : Flight} {e : Errand} {addresses : List String}
    {i : Nat} (h : Flown errands f e addresses i) : f.sender < errands.length :=
  (List.getElem?_eq_some_iff.mp h.sender).1

theorem Flown.append {errands more : List Errand} {f : Flight} {e : Errand}
    {addresses : List String} {i : Nat} (h : Flown errands f e addresses i) :
    Flown (errands ++ more) f e addresses i :=
  { h with sender := by rw [List.getElem?_append_left h.lt_length, h.sender] }

theorem getElem?_concat_eq_some {α : Type} {l : List α} {a b : α} {j : Nat}
    (h : (l ++ [a])[j]? = some b) : l[j]? = some b ∨ j = l.length ∧ b = a := by
  rw [List.getElem?_append] at h
  split at h
  · exact .inl h
  · obtain ⟨hlt, rfl⟩ := List.getElem?_eq_some_iff.mp h
    rw [List.length_singleton] at hlt
    exact .inr ⟨by omega, List.getElem_singleton ..⟩

/-- What is read from a flight is a copy of the packet of the job that wrote it. -/
theorem Sound.exists_sender {s : Source} {p : Packet} {pool : BufferPool} {i cause : Nat} (h : Sound m)
    (hread : (Packet.decode pool s).1 = .ok p) (hcomes : m.Comes s (some i) cause) :
    ∃ f sender, m.flights[i]? = some f ∧ cause = f.cause ∧ m.errands[f.sender]? = some sender ∧
      p = sender.packet.alone := by
  obtain ⟨-, f, hf, hdelivers, hcause⟩ := hcomes
  obtain ⟨sender, addresses, j, hflown⟩ := h.flown f (List.mem_of_getElem? hf)
  have hsender := h.decodable sender (List.mem_of_getElem? hflown.sender)
  exact ⟨f, sender, hf, hcause.symm, hflown.sender,
    packet_of_delivers hsender hflown.bytes_eq hdelivers hread⟩

/-- A packet comes from where no other packet of the same cause came from. -/
theorem Sound.origin_ne {s : Source} {e e' : Errand} (h : Sound m)
    (hcomes : m.Comes s e.origin e.cause) (he' : e' ∈ m.errands) :
    (e'.origin, e'.cause) ≠ (e.origin, e.cause) := by
  intro hsame
  obtain ⟨horigin, hcause⟩ := Prod.mk.inj hsame
  obtain ⟨job, hjob, rfl⟩ := List.mem_map.mp he'
  cases hi : e.origin with
  | none =>
    rw [hi] at hcomes horigin
    obtain ⟨j, hj⟩ := List.mem_iff_getElem?.mp he'
    have hlength : m.errands.length = m.jobs.length := List.length_map _
    have hlt := (List.getElem?_eq_some_iff.mp hj).1
    have hold := h.cause_eq j _ hj horigin
    have hnew : e.cause = m.jobs.length := hcomes
    omega
  | some i =>
    rw [hi] at hcomes horigin
    exact hcomes.1 job hjob horigin

theorem Sound.enroll {s : Source} {e : Errand} {pool : BufferPool} (h : Sound m)
    (hread : (Packet.decode pool s).1 = .ok e.packet) (hcomes : m.Comes s e.origin e.cause)
    (hx : x.request.packet = e.packet) : Sound (m.enroll e x) := by
  have hlength : m.errands.length = m.jobs.length := List.length_map _
  refine ⟨fun e' he ↦ ?_, fun j job hj ↦ ?_, fun f hf ↦ ?_, h.nodup, fun j e' hj horigin ↦ ?_,
    fun e' he i hi ↦ ?_, ?_⟩
  · rw [errands_enroll, List.mem_append, List.mem_singleton] at he
    rcases he with he | rfl
    · exact h.decodable e' he
    · exact Packet.decodable_of_decode hread
  · rcases getElem?_concat_eq_some hj with hj | ⟨rfl, rfl⟩
    · exact h.course j job hj
    · -- The job is the last one, so nothing can have been written for it.
      refine .arrived rfl rfl hx fun f hf hsender ↦ ?_
      obtain ⟨e', addresses, i, hflown⟩ := h.flown f hf
      have := hflown.lt_length
      omega
  · obtain ⟨e', addresses, i, hflown⟩ := h.flown f hf
    rw [errands_enroll]
    exact ⟨e', addresses, i, hflown.append⟩
  · rw [errands_enroll] at hj
    rcases getElem?_concat_eq_some hj with hj | ⟨rfl, rfl⟩
    · exact h.cause_eq j e' hj horigin
    · rw [horigin] at hcomes
      rw [hlength]
      exact hcomes
  · rw [errands_enroll, List.mem_append, List.mem_singleton] at he
    obtain ⟨f, sender, hf, hcause, hsender, hpacket⟩ : ∃ f sender, m.flights[i]? = some f ∧
        e'.cause = f.cause ∧ m.errands[f.sender]? = some sender ∧
        e'.packet = sender.packet.alone := by
      rcases he with he | rfl
      · exact h.read e' he i hi
      · exact h.exists_sender hread (hi ▸ hcomes)
    have hlt := (List.getElem?_eq_some_iff.mp hsender).1
    rw [errands_enroll]
    exact ⟨f, sender, hf, hcause, by rw [List.getElem?_append_left hlt, hsender], hpacket⟩
  · rw [errands_enroll, List.map_append, List.map_singleton]
    refine List.nodup_append.mpr ⟨h.origins, List.nodup_singleton _, ?_⟩
    intro a ha b hb
    obtain ⟨e', he', rfl⟩ := List.mem_map.mp ha
    obtain rfl : b = (e.origin, e.cause) := List.mem_singleton.mp hb
    exact h.origin_ne hcomes he'

theorem Sound.note {entry : Option Nat} {progress : JobState} (h : Sound m)
    (hjob : m.jobs[k]? = some job)
    (hsent : ∀ f ∈ sentBy k job entry y, ∃ addresses i, Flown m.errands f job.toErrand addresses i)
    (hnew : ((sentBy k job entry y).map (·.entry)).Nodup)
    (hunsent : ∀ f ∈ sentBy k job entry y, ∀ g ∈ m.flights, g.sender = k → g.entry ≠ f.entry)
    (hcourse : Course (m.flights ++ sentBy k job entry y) k
      { job with request := y.request, progress, attempts := y.asked ++ job.attempts }) :
    Sound (m.note k job entry progress y) := by
  have herrands := errands_note hjob entry progress y
  have hsender : ∀ f ∈ sentBy k job entry y, f.sender = k := by
    intro f hf
    obtain ⟨w, -, rfl⟩ := List.mem_map.mp hf
    rfl
  refine ⟨herrands ▸ h.decodable, fun j job' hj ↦ ?_, fun f hf ↦ ?_, ?_, herrands ▸ h.cause_eq,
    fun e he i hi ↦ ?_, herrands ▸ h.origins⟩
  · by_cases hjk : j = k
    · subst hjk
      have hlt := (List.getElem?_eq_some_iff.mp hjob).1
      obtain rfl := Option.some.inj ((List.getElem?_set_self hlt).symm.trans hj)
      exact hcourse
    · have hold : m.jobs[j]? = some job' := (List.getElem?_set_ne (Ne.symm hjk)).symm.trans hj
      exact (h.course j job' hold).append fun f hf hfj ↦ hjk (hfj.symm.trans (hsender f hf))
  · rw [herrands]
    rcases List.mem_append.mp hf with hf | hf
    · exact h.flown f hf
    · exact ⟨_, hsent f hf⟩
  · change ((m.flights ++ sentBy k job entry y).map _).Nodup
    rw [List.map_append]
    refine List.nodup_append.mpr ⟨h.nodup, ?_, ?_⟩
    · refine List.Nodup.of_map Prod.snd ?_
      rw [List.map_map]
      exact hnew
    · intro a ha b hb hab
      obtain ⟨g, hg, rfl⟩ := List.mem_map.mp ha
      obtain ⟨f, hf, rfl⟩ := List.mem_map.mp hb
      obtain ⟨hgf, hentry⟩ := Prod.mk.inj hab
      exact hunsent f hf g hg (hgf.trans (hsender f hf)) hentry
  · rw [herrands] at he ⊢
    obtain ⟨f, sender, hf, hrest⟩ := h.read e he i hi
    refine ⟨f, sender, ?_, hrest⟩
    have hlt := (List.getElem?_eq_some_iff.mp hf).1
    exact (List.getElem?_append_left hlt).trans hf

/-- A step that writes nothing changes nothing but the course of its job. -/
theorem Sound.noteQuiet {entry : Option Nat} {progress : JobState} (h : Sound m)
    (hjob : m.jobs[k]? = some job) (hquiet : y.node.forwarder.written = [])
    (hcourse : Course m.flights k
      { job with request := y.request, progress, attempts := y.asked ++ job.attempts }) :
    Sound (m.note k job entry progress y) := by
  have hnone : sentBy k job entry y = [] := by rw [sentBy, hquiet, List.map_nil]
  refine h.note hjob (by simp [hnone]) (by simp [hnone]) (by simp [hnone]) ?_
  rw [hnone, List.append_nil]
  exact hcourse

theorem Sound.departs {addresses : List String} {client : Sink} (h : Sound m)
    (hjob : m.jobs[k]? = some job) (harrived : job.progress = .arrived)
    (hrelays : (m.working job client).Relays addresses) :
    Sound (m.note k job none (.under ((m.working job client).departing addresses).1)
      ((m.working job client).departing addresses).2) := by
  cases h.course k job hjob with
  | arrived hprogress hattempts hpacket hunsent =>
    have hrelays' : RelaysTo addresses job.packet := hpacket ▸ relaysTo_of_relays hrelays
    refine h.noteQuiet hjob rfl (.relaying rfl hattempts hpacket hrelays' (List.length_map _) ?_)
    exact fun f hf hk ↦ absurd hk (hunsent f hf)
  | relaying hprogress => cases harrived.symm.trans hprogress
  | beyond hne => exact absurd harrived hne

theorem Sound.serves {env : Environment ω σ} {client : Sink} (h : Sound m)
    (hjob : m.jobs[k]? = some job) (harrived : job.progress = .arrived)
    (hlocal : ∀ addresses, ¬ (m.working job client).Relays addresses) :
    Sound (m.note k job none .ended ((m.working job client).process env.observed).2) := by
  obtain ⟨hwritten, hasked⟩ := Handling.observed_process env hlocal
  cases h.course k job hjob with
  | arrived hprogress hattempts hpacket hunsent =>
    refine h.noteQuiet hjob hwritten (.beyond nofun nofun ?_)
    dsimp only
    rw [hattempts, List.append_nil, ← hpacket]
    rcases hasked with hasked | hasked <;> rw [hasked]
    · exact List.nil_sublist _
    · change (operations job.request.packet ++ []).Sublist _
      rw [List.append_nil]
  | relaying hprogress => cases harrived.symm.trans hprogress
  | beyond hne => exact absurd harrived hne

theorem Sound.acts {env : Environment ω σ} {client : Sink} {stage stage' : Stage} {a : Act}
    (h : Sound m) (hjob : m.jobs[k]? = some job) (hunder : job.progress = .under stage)
    (hact : Handling.act env.observed (stage, m.working job client) a = some (stage', y)) :
    Sound (m.note k job (entryOf a) (.under stage') y) := by
  have hcourse := h.course k job hjob
  rcases Handling.act_cases hact with
    ⟨relays, relays', i, rfl, rfl, rfl, hrequest, hasked, hlength, hended, hwritten⟩ |
    ⟨hstage, hwritten, hasked⟩
  · cases hcourse with
    | arrived hprogress => cases hunder.symm.trans hprogress
    | beyond harrived hrelaying => exact absurd hunder (hrelaying relays)
    | relaying hprogress hattempts hpacket hrelays hlength' hsent =>
      cases hunder.symm.trans hprogress
      have hattempts' : y.asked ++ job.attempts = [] := by rw [hattempts, hasked]; rfl
      have hpacket' : y.request.packet = job.packet := by rw [hrequest]; exact hpacket
      rcases hwritten with hquiet | ⟨link, whole, hwrote, hlt, hopen, hclosed⟩
      · refine h.noteQuiet hjob hquiet
          (.relaying rfl hattempts' hpacket' hrelays (hlength.trans hlength') fun f hf hk ↦ ?_)
        obtain ⟨j, hj, hendedj⟩ := hsent f hf hk
        exact ⟨j, hj, hended j hendedj⟩
      · let flight : Flight := ⟨k, job.cause, some i, link, relayFrame job.request.packet, whole⟩
        have hflight : sentBy k job (entryOf (.exchange i)) y = [flight] := by
          rw [sentBy, hwrote]
          rfl
        refine h.note hjob ?_ ?_ ?_
          (.relaying rfl hattempts' hpacket' hrelays (hlength.trans hlength') ?_) <;> rw [hflight]
        · intro f hf
          obtain rfl := List.mem_singleton.mp hf
          exact ⟨_, i, errands_of_job hjob, rfl, hrelays, rfl, hlength' ▸ hlt, by
            simp only [flight, hpacket]⟩
        · exact List.nodup_singleton _
        · -- Whatever was written before was written by a relay that has ended since.
          intro f hf g hg hgk hentry
          obtain rfl := List.mem_singleton.mp hf
          obtain ⟨j, hj, hendedj⟩ := hsent g hg hgk
          obtain rfl : j = i := Option.some.inj (hj.symm.trans hentry)
          exact hopen hendedj
        · intro f hf hk
          rcases List.mem_append.mp hf with hf | hf
          · obtain ⟨j, hj, hendedj⟩ := hsent f hf hk
            exact ⟨j, hj, hended j hendedj⟩
          · obtain rfl := List.mem_singleton.mp hf
            exact ⟨i, rfl, hclosed⟩
  · refine h.noteQuiet hjob hwritten (.beyond nofun (fun relays hrelays ↦ ?_) ?_)
    · exact hstage relays (JobState.under.inj hrelays)
    · dsimp only
      rcases hasked with hasked | ⟨⟨relays, rfl⟩, hasked⟩ <;> rw [hasked]
      · exact hcourse.attempts_sublist
      · cases hcourse with
        | arrived hprogress => cases hunder.symm.trans hprogress
        | beyond harrived hrelaying => exact absurd hunder (hrelaying relays)
        | relaying hprogress hattempts hpacket =>
          change (operations job.request.packet ++ [] ++ job.attempts).Sublist _
          rw [hattempts, List.append_nil, List.append_nil, hpacket]

theorem Sound.leaves {env : Environment ω σ} {client : Sink} {ok : Bool} (h : Sound m)
    (hjob : m.jobs[k]? = some job) :
    Sound (m.note k job none .ended ((m.working job client).finish env.observed ok)) := by
  obtain ⟨hwritten, hasked⟩ := Handling.observed_finish env ok (m.working job client)
  refine h.noteQuiet hjob hwritten (.beyond nofun nofun ?_)
  dsimp only
  rw [hasked]
  exact (h.course k job hjob).attempts_sublist

theorem Sound.step (h : Sound m) (hstep : Step m m') : Sound m' := by
  cases hstep with
  | drifts nodes =>
    exact ⟨h.decodable, h.course, h.flown, h.nodup, h.cause_eq, h.read, h.origins⟩
  | arrives env pool client hread hcomes => exact h.enroll hread hcomes rfl
  | departs client hjob harrived hrelays => exact h.departs hjob harrived hrelays
  | serves env client hjob harrived hlocal => exact h.serves hjob harrived hlocal
  | acts env client hjob hunder hact => exact h.acts hjob hunder hact
  | leaves env client hjob hunder => exact h.leaves hjob

theorem Reached.sound (h : Reached m) : Sound m := by
  induction h with
  | start nodes => exact sound_start nodes
  | step h hstep ih => exact ih.step hstep

/-! ## What one packet of a client comes to -/

/-- Whatever was written is a copy of a client's packet, by the node that the client addressed. -/
theorem Sound.flown_of_client (h : Sound m) {f : Flight} (hf : f ∈ m.flights) :
    ∃ e addresses i, Flown m.errands f e addresses i ∧ e.origin = none ∧ f.sender = f.cause := by
  obtain ⟨e, addresses, i, hflown⟩ := h.flown f hf
  have horigin : e.origin = none := by
    cases ho : e.origin with
    | none => rfl
    | some j =>
      obtain ⟨_, sender, -, -, -, hpacket⟩ := h.read e (List.mem_of_getElem? hflown.sender) j ho
      have hrelays := hflown.relaysTo
      rw [hpacket] at hrelays
      exact absurd hrelays (not_relaysTo_alone addresses sender.packet)
  exact ⟨e, addresses, i, hflown, horigin,
    (h.cause_eq f.sender e hflown.sender horigin).symm.trans hflown.cause_eq.symm⟩

/-- What is read because of a client's packet is that packet or a copy of it. -/
theorem Sound.packet_of_cause (h : Sound m) {e client : Errand} (he : e ∈ m.errands)
    (hclient : m.errands[e.cause]? = some client) :
    e.packet = client.packet ∨ e.packet = client.packet.alone := by
  cases ho : e.origin with
  | none =>
    obtain ⟨k, hk⟩ := List.mem_iff_getElem?.mp he
    rw [h.cause_eq k e hk ho, hk] at hclient
    exact .inl (congrArg Errand.packet (Option.some.inj hclient))
  | some i =>
    obtain ⟨f, sender, hf, hcause, hsender, hpacket⟩ := h.read e he i ho
    obtain ⟨-, -, -, -, -, hsame⟩ := h.flown_of_client (List.mem_of_getElem? hf)
    rw [hsame, ← hcause, hclient] at hsender
    obtain rfl := Option.some.inj hsender
    exact .inr hpacket

/-- The frames written because of a client's packet are written for different followers. -/
theorem Sound.nodup_entries (h : Sound m) (c : Nat) :
    ((m.flights.filter (·.cause = c)).map (·.entry)).Nodup := by
  refine List.Nodup.of_map (Prod.mk c) ?_
  rw [List.map_map]
  have hsame : (m.flights.filter (·.cause = c)).map (Prod.mk c ∘ (·.entry)) =
      (m.flights.filter (·.cause = c)).map fun f ↦ (f.sender, f.entry) := by
    apply List.map_congr_left
    intro f hf
    obtain ⟨hmem, hcause⟩ := List.mem_filter.mp hf
    obtain ⟨-, -, -, -, -, hsender⟩ := h.flown_of_client hmem
    rw [hsender, of_decide_eq_true hcause]
    rfl
  rw [hsame]
  exact h.nodup.sublist (List.filter_sublist.map _)

/-- Every job but one is taken up from a frame, and each from another. -/
theorem Sound.length_errands_le (h : Sound m) (c : Nat) :
    (m.errands.filter (·.cause = c)).length ≤ 1 + (m.flights.filter (·.cause = c)).length := by
  let numbered := m.flights.zipIdx.filter fun l ↦ l.1.cause = c
  let sources : List (Option Nat) := none :: numbered.map fun l ↦ some l.2
  have hnodup : ((m.errands.filter (·.cause = c)).map (·.origin)).Nodup := by
    refine List.Nodup.of_map (·, c) ?_
    have hsame : ((m.errands.filter (·.cause = c)).map (·.origin)).map (·, c) =
        (m.errands.filter (·.cause = c)).map fun e ↦ (e.origin, e.cause) := by
      rw [List.map_map]
      apply List.map_congr_left
      intro e he
      exact congrArg (Prod.mk e.origin) (of_decide_eq_true (List.mem_filter.mp he).2).symm
    rw [hsame]
    exact h.origins.sublist (List.filter_sublist.map _)
  have hsubset : (m.errands.filter (·.cause = c)).map (·.origin) ⊆ sources := by
    intro origin horigin
    obtain ⟨e, he, rfl⟩ := List.mem_map.mp horigin
    obtain ⟨hmem, hcause⟩ := List.mem_filter.mp he
    cases ho : e.origin with
    | none => exact List.mem_cons_self
    | some i =>
      obtain ⟨f, -, hf, hsame, -⟩ := h.read e hmem i ho
      refine List.mem_cons_of_mem _ (List.mem_map.mpr ⟨(f, i), List.mem_filter.mpr ⟨?_, ?_⟩, rfl⟩)
      · exact List.mem_zipIdx_iff_getElem?.mpr hf
      · rw [← hsame]
        exact hcause
  have hnumbered : numbered.length = (m.flights.filter (·.cause = c)).length := by
    calc
      numbered.length = (numbered.map Prod.fst).length := (List.length_map _).symm
      _ = ((m.flights.zipIdx.map Prod.fst).filter (·.cause = c)).length := by
        rw [List.filter_map]
        rfl
      _ = (m.flights.filter (·.cause = c)).length := by rw [List.zipIdx_map_fst]
  have hle := (hnodup.subperm hsubset).length_le
  simp only [List.length_map, List.length_cons, sources, hnumbered] at hle
  omega

theorem length_operations_le (p : Packet) : (operations p).length ≤ 1 := by
  unfold operations
  rcases (Handling.operationOf p).toOption with _ | op <;> simp

theorem mem_operations {p : Packet} {op : Extent.Operation} (h : op ∈ operations p) :
    Handling.operationOf p = .ok op := by
  unfold operations at h
  rcases ho : Handling.operationOf p with fault | op'
  · simp [ho, Except.toOption] at h
  · rw [ho] at h
    rw [List.mem_singleton.mp h]

theorem length_flatMap_le {α β : Type} {l : List α} {f : α → List β}
    (h : ∀ a ∈ l, (f a).length ≤ 1) : (l.flatMap f).length ≤ l.length := by
  induction l with
  | nil => exact Nat.le_refl 0
  | cons a l ih =>
    have ha := h a List.mem_cons_self
    have hl := ih fun b hb ↦ h b (List.mem_cons_of_mem _ hb)
    rw [List.flatMap_cons, List.length_append, List.length_cons]
    omega

/-- A packet that is relayed is no command, asks for one reply and has somewhere to go. -/
theorem RelaysTo.not_local {addresses : List String} {p : Packet} (h : RelaysTo addresses p) :
    ¬ (p.header.opcode.isMaster = true ∨ p.header.opcode = .streamRead ∨ p.header.remaining ≤ 0 ∨
      ∃ fault, Request.parseFollowers p = .error fault) := by
  obtain ⟨hmaster, hparse, hforward⟩ := h
  simp only [Request.isForward, Request.ofPacket, Bool.and_eq_true, Bool.not_eq_true'] at hforward
  rintro (hm | hs | hr | ⟨fault, hf⟩)
  · simp [hmaster] at hm
  · simp [hs, Wire.Opcode.streamsReply] at hforward
  · exact Int8.not_lt.mpr hr (of_decide_eq_true hforward.1)
  · simp [hparse] at hf

/-- The followers that a packet names, if its descriptors can be read. -/
def descriptorsOf (p : Packet) : List String :=
  (Request.parseFollowers p).toOption.getD []

theorem RelaysTo.descriptorsOf_eq {addresses : List String} {p : Packet} (h : RelaysTo addresses p) :
    descriptorsOf p = addresses := by
  rw [descriptorsOf, h.parse_eq]
  rfl

/-- What is written because of a client's packet is a copy of it, for one of its descriptors. -/
theorem Sound.copy_of_cause (h : Sound m) {e : Errand} {c : Nat} (he : m.errands[c]? = some e)
    {f : Flight} (hf : f ∈ m.flights.filter (·.cause = c)) :
    f.sender = c ∧ RelaysTo (descriptorsOf e.packet) e.packet ∧ f.bytes = relayFrame e.packet ∧
      ∃ i < (descriptorsOf e.packet).length, f.entry = some i := by
  obtain ⟨hmem, hcause⟩ := List.mem_filter.mp hf
  obtain ⟨e', addresses, i, hflown, -, hsender⟩ := h.flown_of_client hmem
  have hc : f.sender = c := hsender.trans (of_decide_eq_true hcause)
  have hsame : m.errands[c]? = some e' := hc ▸ hflown.sender
  obtain rfl := Option.some.inj (he.symm.trans hsame)
  rw [hflown.relaysTo.descriptorsOf_eq]
  exact ⟨hc, hflown.relaysTo, hflown.bytes_eq, i, hflown.entry_lt, hflown.entry_eq⟩

theorem Sound.length_flights_le (h : Sound m) {e : Errand} {c : Nat} (he : m.errands[c]? = some e) :
    (m.flights.filter (·.cause = c)).length ≤ (descriptorsOf e.packet).length := by
  have hsubset : (m.flights.filter (·.cause = c)).map (·.entry) ⊆
      (List.range (descriptorsOf e.packet).length).map some := by
    intro entry hentry
    obtain ⟨f, hf, rfl⟩ := List.mem_map.mp hentry
    obtain ⟨-, -, -, i, hlt, hi⟩ := h.copy_of_cause he hf
    exact List.mem_map.mpr ⟨i, List.mem_range.mpr hlt, hi.symm⟩
  simpa using ((h.nodup_entries c).subperm hsubset).length_le

/-- Nodes do not ask their storages more often than they read a client's packet and the copies of it. -/
theorem Sound.length_attempts_le (h : Sound m) {e : Errand} {c : Nat} (he : m.errands[c]? = some e) :
    ((m.jobs.filter (·.cause = c)).flatMap (·.attempts)).length ≤
      1 + (descriptorsOf e.packet).length := by
  have herrands := h.length_errands_le c
  rw [errands, List.filter_map, List.length_map] at herrands
  calc
    ((m.jobs.filter (·.cause = c)).flatMap (·.attempts)).length
      ≤ (m.jobs.filter (·.cause = c)).length := by
        refine length_flatMap_le fun other hother ↦ ?_
        obtain ⟨k, hk⟩ := List.mem_iff_getElem?.mp (List.mem_filter.mp hother).1
        exact Nat.le_trans (h.course k other hk).attempts_sublist.length_le
          (length_operations_le other.packet)
    _ ≤ 1 + (m.flights.filter (·.cause = c)).length := herrands
    _ ≤ 1 + (descriptorsOf e.packet).length := Nat.add_le_add_left (h.length_flights_le he) 1

/-- What nodes ask of their storages because of a client's packet is what the packet asks for. -/
theorem Sound.operationOf_of_cause (h : Sound m) {e : Errand} {c : Nat} (he : m.errands[c]? = some e)
    {op : Extent.Operation} (hop : op ∈ (m.jobs.filter (·.cause = c)).flatMap (·.attempts)) :
    Handling.operationOf e.packet = .ok op := by
  obtain ⟨other, hother, hop⟩ := List.mem_flatMap.mp hop
  obtain ⟨hmem, hcause⟩ := List.mem_filter.mp hother
  obtain ⟨k, hk⟩ := List.mem_iff_getElem?.mp hmem
  have hasked := mem_operations ((h.course k other hk).attempts_sublist.subset hop)
  have hc : m.errands[other.cause]? = some e := by
    rw [of_decide_eq_true hcause]
    exact he
  rcases h.packet_of_cause (List.mem_map_of_mem hmem) hc with hsame | hsame <;> rwa [hsame] at hasked

/-- A packet of a client is relayed at most once for each of its descriptors, by the node that the client
addressed, as a copy that names nobody.  Nobody who reads such a copy writes anything because of it, so the
operation of the packet is asked for at most once more than there are descriptors, on all nodes together.
Nothing is written for a command of the master, a streamed read, a packet that is not to go any further or
one whose descriptors are refused. -/
theorem relayed_once (h : Reached m) {c : Nat} (hjob : m.jobs[c]? = some job) :
    let p := job.packet
    let descriptors := (Request.parseFollowers p).toOption.getD []
    let caused := m.flights.filter (·.cause = c)
    let attempts := (m.jobs.filter (·.cause = c)).flatMap (·.attempts)
    (∀ f ∈ caused, f.sender = c ∧ (∃ i < descriptors.length, f.entry = some i) ∧
      ∀ (pool : BufferPool) (s : Source) (t : ByteArray), s.bytes = f.bytes ++ t →
        ∃ q, (Packet.decode pool s).1 = .ok q ∧ q.header.remaining = 0 ∧
          q.header.argumentSize = 0 ∧ q.argument = .empty) ∧
    (caused.map (·.entry)).Nodup ∧ caused.length ≤ descriptors.length ∧
    (∀ (k : Nat) (other : Job), m.jobs[k]? = some other → other.origin ≠ none →
      ∀ f ∈ m.flights, f.sender ≠ k) ∧
    attempts.length ≤ 1 + descriptors.length ∧
    (∀ op ∈ attempts, Handling.operationOf p = .ok op) ∧
    (p.header.opcode.isMaster = true ∨ p.header.opcode = .streamRead ∨ p.header.remaining ≤ 0 ∨
      (∃ fault, Request.parseFollowers p = .error fault) → caused = []) := by
  intro p descriptors caused attempts
  have hsound := h.sound
  have herrand : m.errands[c]? = some job.toErrand := errands_of_job hjob
  have hdecodable : p.Decodable := hsound.decodable _ (List.mem_of_getElem? herrand)
  refine ⟨fun f hf ↦ ?_, hsound.nodup_entries c, hsound.length_flights_le herrand,
    fun k other hother horigin f hf hk ↦ ?_, hsound.length_attempts_le herrand,
    fun op hop ↦ hsound.operationOf_of_cause herrand hop, fun hlocal ↦ ?_⟩
  · obtain ⟨hsender, -, hbytes, hentry⟩ := hsound.copy_of_cause herrand hf
    refine ⟨hsender, hentry, fun pool s t hs ↦ ?_⟩
    obtain ⟨_, _, hdecode, -⟩ := hdecodable.decode_relayFrame pool (hbytes ▸ hs)
    exact ⟨p.alone, by rw [hdecode], rfl, rfl, rfl⟩
  · -- A job that wrote something was taken up from a client.
    obtain ⟨e, addresses, i, hflown, hnone, -⟩ := hsound.flown_of_client hf
    have hsame := hk ▸ hflown.sender
    rw [errands_of_job hother] at hsame
    obtain rfl := Option.some.inj hsame
    exact horigin hnone
  · refine List.eq_nil_iff_forall_not_mem.mpr fun f hf ↦ ?_
    obtain ⟨-, hrelays, -⟩ := hsound.copy_of_cause herrand hf
    exact hrelays.not_local hlocal

end Steps

/-- A client asks a node to create an extent and names the node itself as the follower.  The node relays the
request to itself, once, and does not relay what it then reads. -/
theorem relayed_once_itself :
    let p := (Packet.createExtent 0 1 1 1).withFollowers (Follower.encode ["a:1"]).toUTF8 1
    ∃ (m : Mesh Extent.Store Unit) (job : Job), Reached m ∧ m.jobs[0]? = some job ∧
      job.packet = p ∧ m.jobs.map (·.home) = ["a:1", "a:1"] ∧
      m.flights.map (fun f ↦ (f.sender, f.entry, f.link.address)) = [(0, some 0, "a:1")] ∧
      ((m.jobs.filter (·.cause = 0)).flatMap (·.attempts)).length ≤ 2 := by
  intro p
  let net : Network Unit :=
    { dial := fun _ s ↦ (some .succeeded, s)
      await := fun _ s ↦ (.succeeded, s)
      write := fun _ _ s ↦ (.ok (), s)
      incoming := fun _ s ↦ (⟨[], .closed⟩, s)
      leave := fun _ _ s ↦ s
      close := fun _ s ↦ s }
  let env := Node.environment {} net 0
  let node : Node (Extent.Store × List Extent.Operation) (Unit × List Event) :=
    .idle (.empty 10, []) ⟨1, 1, 1⟩ (.filled 0 0) .disabled ((), [])
  have hread : (Packet.decode .standard (.ofBytes p.frame)).1 = .ok p := by decide +kernel
  have hstart : Reached (⟨fun _ ↦ node, [], []⟩ : Mesh Extent.Store Unit) := .start _
  have harrived := hstart.step (.arrives (e := ⟨"a:1", p, none, 0⟩) env .standard .unbounded hread rfl)
  have hdeparted := harrived.step (.departs (k := 0) .unbounded rfl rfl
    (⟨rfl, by decide +kernel, by decide⟩ : Handling.Relays ["a:1"] _))
  have hdialed := hdeparted.step (.acts (k := 0) (a := .exchange 0) env .unbounded rfl rfl rfl)
  have hwritten := hdialed.step (.acts (k := 0) (a := .exchange 0) env .unbounded rfl rfl rfl)
  let flight : Flight := ⟨0, 0, some 0, ⟨0, "a:1"⟩, relayFrame p, true⟩
  have hcaught := hwritten.step (.arrives (e := ⟨"a:1", p.alone, some 0, 0⟩)
    (s := .ofBytes (relayFrame p)) env .standard .unbounded (by decide +kernel)
    ⟨by decide +kernel, flight, by decide +kernel, .inr ⟨rfl, .empty, by simp [flight]⟩, rfl⟩)
  have hserved := hcaught.step (.serves (k := 1) env .unbounded rfl rfl
    fun addresses hrelays ↦ not_relaysTo_alone addresses p (relaysTo_of_relays hrelays))
  obtain ⟨m, hm, hreached⟩ : ∃ m, m = _ ∧ Reached m := ⟨_, rfl, hserved⟩
  obtain ⟨job, hjob, hpacket⟩ : ∃ job, m.jobs[0]? = some job ∧ job.packet = p := by
    rw [hm]
    exact ⟨_, rfl, rfl⟩
  have hone : ((Request.parseFollowers p).toOption.getD []).length = 1 := by decide +kernel
  have hbound := (relayed_once hreached hjob).2.2.2.2.1
  rw [hpacket, hone] at hbound
  refine ⟨m, job, hreached, hjob, hpacket, ?_, ?_, hbound⟩
  · rw [hm]
    decide +kernel
  · rw [hm]
    decide +kernel

end Mesh

end ReplicaChain.Cluster
