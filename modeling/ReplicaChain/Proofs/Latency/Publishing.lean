import Mathlib.Data.List.Sort
import ReplicaChain.Latency.Registry
import ReplicaChain.Proofs.Follower.Exchanges
import ReplicaChain.Proofs.Latency.Distribution

/-!
# Publishing side by side

Several publishers may work on one registry, each with a sample of its own, and between any two steps of
one of them the others may take any number of steps.  A publisher that found no histogram claims a place
in a step of its own, so another may have claimed one for the same key in the meantime.  A place stays with
its key, and so a publisher that holds one records where everybody looks for that key.
-/

namespace ReplicaChain.Latency

open Follower (filterMap_set_perm map_set_of_getElem?_eq set_of_getElem?_eq)

/-! ## Steps of a registry -/

namespace Registry

variable {r : Registry} {key key' : String} {place : Nat}

theorem lookup_recordAt (place : Nat) (d : Duration) (r : Registry) (key : String) :
    (r.recordAt place d).lookup key = r.lookup key :=
  rfl

theorem getElem?_recordAt (place place' : Nat) (d : Duration) (r : Registry) :
    (r.recordAt place d).histograms[place']? =
      if place = place' then r.histograms[place']?.map (Histogram.record d)
      else r.histograms[place']? :=
  Array.getElem?_modify

theorem claim_of_some (h : r.lookup key = some place) : r.claim key = (place, r) := by
  rw [claim, h]

/-- A new place is after all others. -/
theorem claim_of_none (h : r.lookup key = none) :
    r.claim key = (r.histograms.size,
      ⟨r.places.insert key r.histograms.size, r.histograms.push .empty⟩) := by
  rw [claim, h]

theorem lookup_claim (key key' : String) (r : Registry) :
    (r.claim key).2.lookup key' =
      if key = key' then some (r.claim key).1 else r.lookup key' := by
  cases h : r.lookup key with
  | some place =>
    rw [claim_of_some h]
    split
    · rename_i hkey
      rw [← hkey, h]
    · rfl
  | none =>
    rw [claim_of_none h]
    simp only [lookup, Std.ExtTreeMap.getElem?_insert, Std.compare_eq_iff_eq]

/-- Claiming a place disturbs no histogram that is there. -/
theorem getElem?_claim {h : Histogram} (hplace : r.histograms[place]? = some h) (key : String) :
    (r.claim key).2.histograms[place]? = some h := by
  cases hkey : r.lookup key with
  | some place' => rw [claim_of_some hkey, hplace]
  | none =>
    have hlt := (Array.getElem?_eq_some_iff.mp hplace).1
    rw [claim_of_none hkey, Array.getElem?_push, if_neg (Nat.ne_of_lt hlt), hplace]

/-- The published keys are those that have a place. -/
theorem mem_keys : key ∈ r.keys ↔ (r.lookup key).isSome := by
  rw [keys, List.mem_map, Option.isSome_iff_exists]
  constructor
  · rintro ⟨⟨k, place⟩, hmem, rfl⟩
    exact ⟨place, Std.ExtTreeMap.mem_toList_iff_getElem?_eq_some.mp hmem⟩
  · rintro ⟨place, h⟩
    exact ⟨(key, place), Std.ExtTreeMap.mem_toList_iff_getElem?_eq_some.mpr h, rfl⟩

theorem ascending_keys (r : Registry) : r.keys.Pairwise (· < ·) := by
  rw [keys, List.pairwise_map]
  exact r.places.ordered_keys_toList.imp compareOfLessAndEq_eq_lt.mp

end Registry

/-! ## Publishers -/

inductive Stage where
  | waiting
  /-- It looked the key up and found no histogram. -/
  | missed
  /-- It knows the histogram to record into. -/
  | holding (place : Nat)
  | done
  deriving DecidableEq

structure Publisher where
  sample : Sample
  stage : Stage

namespace Publisher

/-- The next step of a publisher, and what it makes of the registry. -/
def advance (p : Publisher) (r : Registry) : Publisher × Registry :=
  match p.stage with
  | .waiting => ({ p with stage := (r.lookup p.sample.key).elim .missed .holding }, r)
  | .missed => ({ p with stage := .holding (r.claim p.sample.key).1 }, (r.claim p.sample.key).2)
  | .holding place => ({ p with stage := .done }, r.recordAt place p.sample.elapsed)
  | .done => (p, r)

def recorded? (key : String) (p : Publisher) : Option Duration :=
  if p.stage = .done ∧ p.sample.key = key then some p.sample.elapsed else none

theorem sample_advance (p : Publisher) (r : Registry) : (p.advance r).1.sample = p.sample := by
  unfold advance
  split <;> rfl

end Publisher

structure Publishing where
  registry : Registry
  publishers : List Publisher

namespace Publishing

/-- Nobody has begun, and nothing is recorded. -/
def start (samples : List Sample) : Publishing :=
  ⟨.empty, samples.map (Publisher.mk · .waiting)⟩

def step (c : Publishing) (i : Nat) : Publishing :=
  match c.publishers[i]? with
  | some p => ⟨(p.advance c.registry).2, c.publishers.set i (p.advance c.registry).1⟩
  | none => c

def run (schedule : List Nat) (c : Publishing) : Publishing :=
  schedule.foldl step c

def IsDone (c : Publishing) : Prop :=
  ∀ p ∈ c.publishers, p.stage = .done

/-- The durations recorded under a key, in the order of the publishers. -/
def recorded (key : String) (c : Publishing) : List Duration :=
  c.publishers.filterMap (Publisher.recorded? key)

variable {c : Publishing} {samples : List Sample} {p : Publisher} {i : Nat}

theorem step_of_some (h : c.publishers[i]? = some p) :
    c.step i = ⟨(p.advance c.registry).2, c.publishers.set i (p.advance c.registry).1⟩ := by
  rw [step, h]

theorem step_of_none (h : c.publishers[i]? = none) : c.step i = c := by
  rw [step, h]

/-- A place belongs to one key, and its histogram has the durations that were recorded under that key.  Who
holds a place looked its own key up, and only keys of samples have places. -/
structure Sound (samples : List Sample) (c : Publishing) : Prop where
  samples_eq : c.publishers.map Publisher.sample = samples
  key_eq : ∀ key key' place, c.registry.lookup key = some place →
    c.registry.lookup key' = some place → key = key'
  held : ∀ p ∈ c.publishers, ∀ place, p.stage = .holding place →
    c.registry.lookup p.sample.key = some place
  found : ∀ p ∈ c.publishers, p.stage = .done → (c.registry.lookup p.sample.key).isSome
  known : ∀ key place, c.registry.lookup key = some place → ∃ s ∈ samples, s.key = key
  histogram_eq : ∀ key place, c.registry.lookup key = some place →
    c.registry.histograms[place]? = some (.ofList (c.recorded key))

theorem sound_start (samples : List Sample) : (start samples).Sound samples := by
  have hnone (key : String) (place : Nat) : (start samples).registry.lookup key ≠ some place := by
    rw [Registry.lookup, show (start samples).registry.places = ∅ from rfl,
      Std.ExtTreeMap.getElem?_empty]
    exact Option.some_ne_none place |>.symm
  have hwaiting (p : Publisher) (hp : p ∈ (start samples).publishers) : p.stage = .waiting := by
    obtain ⟨s, -, rfl⟩ := List.mem_map.mp hp
    rfl
  refine ⟨?_, fun key _ place h ↦ absurd h (hnone key place), fun p hp place h ↦ ?_,
    fun p hp h ↦ ?_, fun key place h ↦ absurd h (hnone key place),
    fun key place h ↦ absurd h (hnone key place)⟩
  · exact (List.map_map ..).trans (List.map_id' samples)
  · rw [hwaiting p hp] at h
    cases h
  · rw [hwaiting p hp] at h
    cases h

/-- A step adds to what is recorded under a key what the publisher has recorded with it. -/
theorem recorded_step (h : c.publishers[i]? = some p) (hp : p.stage ≠ .done) (key : String) :
    ((c.step i).recorded key).Perm
      (((p.advance c.registry).1.recorded? key).toList ++ c.recorded key) := by
  rw [step_of_some h]
  exact filterMap_set_perm _ h (if_neg fun hdone ↦ hp hdone.1)

/-- While a publisher has not recorded its sample, its steps only change who has which place. -/
theorem ofList_recorded_step (h : c.publishers[i]? = some p) (hp : p.stage ≠ .done)
    (hstep : (p.advance c.registry).1.stage ≠ .done) (key : String) :
    Histogram.ofList ((c.step i).recorded key) = .ofList (c.recorded key) := by
  refine Histogram.ofList_perm ((recorded_step h hp key).trans ?_)
  rw [Publisher.recorded?, if_neg fun hdone ↦ hstep hdone.1]
  exact .refl _

theorem samples_step (c : Publishing) (i : Nat) :
    (c.step i).publishers.map Publisher.sample = c.publishers.map Publisher.sample := by
  cases h : c.publishers[i]? with
  | none => rw [step_of_none h]
  | some p =>
    rw [step_of_some h]
    exact map_set_of_getElem?_eq h (p.sample_advance c.registry)

theorem mem_publishers_step {q : Publisher} (h : c.publishers[i]? = some p)
    (hq : q ∈ (c.step i).publishers) : q ∈ c.publishers ∨ q = (p.advance c.registry).1 := by
  rw [step_of_some h] at hq
  exact List.mem_or_eq_of_mem_set hq

theorem Sound.mem_samples (h : c.Sound samples) (hp : p ∈ c.publishers) : p.sample ∈ samples :=
  h.samples_eq ▸ List.mem_map_of_mem hp

/-- Nothing is recorded under a key that has no place. -/
theorem Sound.recorded_eq_nil (h : c.Sound samples) {key : String}
    (hkey : c.registry.lookup key = none) : c.recorded key = [] := by
  refine List.filterMap_eq_nil_iff.mpr fun p hp ↦ if_neg ?_
  rintro ⟨hdone, rfl⟩
  have hfound := h.found p hp hdone
  rw [hkey] at hfound
  cases hfound

/-- Looking a key up. -/
theorem Sound.step_waiting (h : c.Sound samples) (hi : c.publishers[i]? = some p)
    (hp : p.stage = .waiting) : (c.step i).Sound samples := by
  have hadvance : p.advance c.registry =
      ({ p with stage := (c.registry.lookup p.sample.key).elim .missed .holding }, c.registry) := by
    rw [Publisher.advance, hp]
  have hregistry : (c.step i).registry = c.registry := by rw [step_of_some hi, hadvance]
  have hnotdone : (p.advance c.registry).1.stage ≠ .done := by
    rw [hadvance]
    cases hlook : c.registry.lookup p.sample.key <;> simp
  refine ⟨(samples_step c i).trans h.samples_eq, hregistry ▸ h.key_eq, fun q hq place hplace ↦ ?_,
    fun q hq hdone ↦ ?_, hregistry ▸ h.known, fun key place hkey ↦ ?_⟩
  · rw [hregistry]
    rcases mem_publishers_step hi hq with hold | rfl
    · exact h.held q hold place hplace
    · rw [hadvance] at hplace ⊢
      cases hlook : c.registry.lookup p.sample.key with
      | none => simp [hlook] at hplace
      | some place' => simpa [hlook] using hplace
  · rw [hregistry]
    rcases mem_publishers_step hi hq with hold | rfl
    · exact h.found q hold hdone
    · exact absurd hdone hnotdone
  · rw [ofList_recorded_step hi (by simp [hp]) hnotdone]
    rw [hregistry] at hkey ⊢
    exact h.histogram_eq key place hkey

/-- Claiming a place.  If another publisher has claimed one in the meantime, that is the place. -/
theorem Sound.step_missed (h : c.Sound samples) (hi : c.publishers[i]? = some p)
    (hp : p.stage = .missed) : (c.step i).Sound samples := by
  have hadvance : p.advance c.registry =
      ({ p with stage := .holding (c.registry.claim p.sample.key).1 },
        (c.registry.claim p.sample.key).2) := by
    rw [Publisher.advance, hp]
  have hregistry : (c.step i).registry = (c.registry.claim p.sample.key).2 := by
    rw [step_of_some hi, hadvance]
  have hnotdone : (p.advance c.registry).1.stage ≠ .done := by simp [hadvance]
  have hlookup (key : String) := Registry.lookup_claim p.sample.key key c.registry
  rw [← hregistry] at hlookup
  -- The place of this key is the place of no other key, be it a new one or not.
  have hown (key : String) (hkey : c.registry.lookup key = some (c.registry.claim p.sample.key).1) :
      p.sample.key = key := by
    cases hlook : c.registry.lookup p.sample.key with
    | some place =>
      rw [Registry.claim_of_some hlook] at hkey
      exact h.key_eq _ _ place hlook hkey
    | none =>
      rw [Registry.claim_of_none hlook] at hkey
      have hlt := (Array.getElem?_eq_some_iff.mp (h.histogram_eq key _ hkey)).1
      exact absurd hlt (Nat.lt_irrefl _)
  refine ⟨(samples_step c i).trans h.samples_eq, fun key key' place hkey hkey' ↦ ?_,
    fun q hq place hplace ↦ ?_, fun q hq hdone ↦ ?_, fun key place hkey ↦ ?_,
    fun key place hkey ↦ ?_⟩
  · rw [hlookup] at hkey hkey'
    split at hkey <;> split at hkey' <;> rename_i hsame hsame'
    · exact hsame.symm.trans hsame'
    · exact hsame.symm.trans (hown key' (hkey'.trans hkey.symm))
    · exact (hown key (hkey.trans hkey'.symm)).symm.trans hsame'
    · exact h.key_eq key key' place hkey hkey'
  · rcases mem_publishers_step hi hq with hold | rfl
    · have hheld := h.held q hold place hplace
      rw [hlookup]
      split
      · rename_i hsame
        rw [Registry.claim_of_some (hsame ▸ hheld)]
      · exact hheld
    · rw [hadvance] at hplace ⊢
      rw [hlookup, if_pos rfl, Stage.holding.inj hplace]
  · rcases mem_publishers_step hi hq with hold | rfl
    · rw [hlookup]
      split
      · rfl
      · exact h.found q hold hdone
    · exact absurd hdone hnotdone
  · rw [hlookup] at hkey
    split at hkey
    · rename_i hsame
      exact ⟨p.sample, h.mem_samples (List.mem_of_getElem? hi), hsame⟩
    · exact h.known key place hkey
  · rw [ofList_recorded_step hi (by simp [hp]) hnotdone, hregistry]
    rw [hlookup] at hkey
    split at hkey
    · rename_i hsame
      obtain rfl := Option.some.inj hkey
      cases hlook : c.registry.lookup key with
      | some place =>
        rw [hsame, Registry.claim_of_some hlook]
        exact h.histogram_eq key place hlook
      | none =>
        rw [hsame, Registry.claim_of_none hlook, h.recorded_eq_nil hlook]
        exact Array.getElem?_push_size
    · exact Registry.getElem?_claim (h.histogram_eq key place hkey) _

/-- Recording.  Whoever looks the key up finds the duration, and nobody who looks up another key does. -/
theorem Sound.step_holding (h : c.Sound samples) (hi : c.publishers[i]? = some p) {place : Nat}
    (hp : p.stage = .holding place) : (c.step i).Sound samples := by
  have hadvance : p.advance c.registry =
      ({ p with stage := .done }, c.registry.recordAt place p.sample.elapsed) := by
    rw [Publisher.advance, hp]
  have hregistry : (c.step i).registry = c.registry.recordAt place p.sample.elapsed := by
    rw [step_of_some hi, hadvance]
  have hlookup (key : String) : (c.step i).registry.lookup key = c.registry.lookup key := by
    rw [hregistry, Registry.lookup_recordAt]
  have hheld := h.held p (List.mem_of_getElem? hi) place hp
  refine ⟨(samples_step c i).trans h.samples_eq, fun key key' place' hkey hkey' ↦ ?_,
    fun q hq place' hplace ↦ ?_, fun q hq hdone ↦ ?_, fun key place' hkey ↦ ?_,
    fun key place' hkey ↦ ?_⟩
  · exact h.key_eq key key' place' (hlookup key ▸ hkey) (hlookup key' ▸ hkey')
  · rw [hlookup]
    rcases mem_publishers_step hi hq with hold | rfl
    · exact h.held q hold place' hplace
    · rw [hadvance] at hplace
      cases hplace
  · rw [hlookup]
    rcases mem_publishers_step hi hq with hold | rfl
    · exact h.found q hold hdone
    · rw [hadvance, hheld]
      rfl
  · exact h.known key place' (hlookup key ▸ hkey)
  · rw [hlookup] at hkey
    have hrecorded := recorded_step hi (by simp [hp]) key
    rw [hadvance, Publisher.recorded?] at hrecorded
    rw [hregistry, Registry.getElem?_recordAt, h.histogram_eq key place' hkey]
    by_cases hsame : p.sample.key = key
    · have hplace : place = place' := Option.some.inj (hheld.symm.trans (hsame ▸ hkey))
      rw [if_pos ⟨rfl, hsame⟩] at hrecorded
      rw [if_pos hplace, Histogram.ofList_perm hrecorded, Option.map_some]
      exact congrArg some (Histogram.ofList_cons _ _).symm
    · have hplace : place ≠ place' := fun heq ↦ hsame (h.key_eq _ _ place hheld (heq ▸ hkey))
      rw [if_neg fun hdone ↦ hsame hdone.2] at hrecorded
      rw [if_neg hplace, Histogram.ofList_perm hrecorded]
      rfl

theorem Sound.step (h : c.Sound samples) (i : Nat) : (c.step i).Sound samples := by
  cases hi : c.publishers[i]? with
  | none => rwa [step_of_none hi]
  | some p =>
    cases hp : p.stage with
    | waiting => exact h.step_waiting hi hp
    | missed => exact h.step_missed hi hp
    | holding place => exact h.step_holding hi hp
    | done =>
      have hadvance : p.advance c.registry = (p, c.registry) := by rw [Publisher.advance, hp]
      rwa [step_of_some hi, hadvance, set_of_getElem?_eq hi]

theorem Sound.run (h : c.Sound samples) (schedule : List Nat) :
    (c.run schedule).Sound samples := by
  induction schedule generalizing c with
  | nil => exact h
  | cons i schedule ih => exact ih (h.step i)

/-! ## One publisher after another -/

/-- Nobody takes a step between those of a publisher, which makes them one publication. -/
theorem run_uninterrupted {s : Sample} (hi : c.publishers[i]? = some ⟨s, .waiting⟩) :
    c.run [i, i, i] = ⟨c.registry.publish s, c.publishers.set i ⟨s, .done⟩⟩ := by
  have hlt := (List.getElem?_eq_some_iff.mp hi).1
  have hset (r : Registry) (p : Publisher) :
      (⟨r, c.publishers.set i p⟩ : Publishing).step i =
        ⟨(p.advance r).2, c.publishers.set i (p.advance r).1⟩ := by
    rw [step_of_some (List.getElem?_set_self hlt), List.set_set]
  have hrun : c.run [i, i, i] = ((c.step i).step i).step i := rfl
  rw [hrun, step_of_some hi, hset, hset]
  cases hlook : c.registry.lookup s.key <;>
    simp only [Publisher.advance, Registry.publish, hlook, Option.elim]

/-- Publishing one sample after another is one of the ways in which publishers can take turns. -/
theorem exists_schedule (samples : List Sample) (c : Publishing) :
    ∃ schedule,
      run schedule ⟨c.registry, c.publishers ++ samples.map (Publisher.mk · .waiting)⟩ =
        ⟨samples.foldl (fun r s ↦ r.publish s) c.registry,
          c.publishers ++ samples.map (Publisher.mk · .done)⟩ := by
  induction samples generalizing c with
  | nil => exact ⟨[], rfl⟩
  | cons s samples ih =>
    let i := c.publishers.length
    obtain ⟨schedule, hrun⟩ := ih ⟨c.registry.publish s, c.publishers ++ [⟨s, .done⟩]⟩
    refine ⟨[i, i, i] ++ schedule, ?_⟩
    have hfirst : (c.publishers ++ (s :: samples).map (Publisher.mk · .waiting))[i]? =
        some ⟨s, .waiting⟩ := by
      rw [List.map_cons, List.getElem?_append_right (Nat.le_refl _), Nat.sub_self,
        List.getElem?_cons_zero]
    rw [run, List.foldl_append, ← run, ← run, run_uninterrupted hfirst]
    rw [List.append_assoc, List.singleton_append] at hrun
    rw [List.map_cons, List.set_append_right _ _ (Nat.le_refl _), Nat.sub_self, List.set_cons_zero,
      List.append_assoc, List.singleton_append] at *
    exact hrun

/-! ## When everybody has published -/

def durations (key : String) (samples : List Sample) : List Duration :=
  (samples.filter fun s ↦ s.key = key).map Sample.elapsed

theorem filterMap_recorded? {publishers : List Publisher} (hdone : ∀ p ∈ publishers, p.stage = .done)
    (key : String) : publishers.filterMap (Publisher.recorded? key) =
      durations key (publishers.map Publisher.sample) := by
  induction publishers with
  | nil => rfl
  | cons p publishers ih =>
    obtain ⟨hp, hrest⟩ := List.forall_mem_cons.mp hdone
    have hlater := ih hrest
    rw [durations] at hlater
    by_cases hkey : p.sample.key = key <;> simp [durations, Publisher.recorded?, hp, hkey, hlater]

theorem Sound.recorded_of_isDone (h : c.Sound samples) (hdone : c.IsDone) (key : String) :
    c.recorded key = durations key samples := by
  rw [← h.samples_eq]
  exact filterMap_recorded? hdone key

theorem Sound.lookup_isSome_iff (h : c.Sound samples) (hdone : c.IsDone) (key : String) :
    (c.registry.lookup key).isSome ↔ ∃ s ∈ samples, s.key = key := by
  constructor
  · intro hkey
    obtain ⟨place, hplace⟩ := Option.isSome_iff_exists.mp hkey
    exact h.known key place hplace
  · rintro ⟨s, hs, rfl⟩
    rw [← h.samples_eq] at hs
    obtain ⟨p, hp, rfl⟩ := List.mem_map.mp hs
    exact h.found p hp (hdone p hp)

theorem Sound.snapshot_of_isDone (h : c.Sound samples) (hdone : c.IsDone) (key : String) :
    c.registry.snapshot key =
      if (∃ s ∈ samples, s.key = key) then some (.ofList (durations key samples)) else none := by
  have hkey := h.lookup_isSome_iff hdone key
  rw [Registry.snapshot]
  cases hlook : c.registry.lookup key with
  | none => rw [if_neg (by simpa [hlook] using hkey), Option.bind_none]
  | some place =>
    rw [if_pos (by simpa [hlook] using hkey), Option.bind_some, h.histogram_eq key place hlook,
      h.recorded_of_isDone hdone]

theorem Sound.mem_keys_iff (h : c.Sound samples) (hdone : c.IsDone) (key : String) :
    key ∈ c.registry.keys ↔ ∃ s ∈ samples, s.key = key :=
  Registry.mem_keys.trans (h.lookup_isSome_iff hdone key)

/-- Publishing one sample after another ends as publishers do that have all published. -/
theorem exists_sound_foldl_publish (samples : List Sample) :
    ∃ c : Publishing, c.Sound samples ∧ c.IsDone ∧
      c.registry = samples.foldl (fun r s ↦ r.publish s) .empty := by
  obtain ⟨schedule, hrun⟩ := exists_schedule samples ⟨.empty, []⟩
  have hsound := (sound_start samples).run schedule
  have hend : (start samples).run schedule = ⟨_, samples.map (Publisher.mk · .done)⟩ := hrun
  refine ⟨_, hsound, ?_, by rw [hend]⟩
  rw [hend]
  intro p hp
  obtain ⟨s, -, rfl⟩ := List.mem_map.mp hp
  rfl

theorem snapshot_foldl_publish (samples : List Sample) (key : String) :
    (samples.foldl (fun r s ↦ r.publish s) Registry.empty).snapshot key =
      if (∃ s ∈ samples, s.key = key) then some (.ofList (durations key samples)) else none := by
  obtain ⟨c, hsound, hdone, hregistry⟩ := exists_sound_foldl_publish samples
  rw [← hregistry]
  exact hsound.snapshot_of_isDone hdone key

/-- Two registries have the same histograms under the same keys. -/
def Alike (r r' : Registry) : Prop :=
  (∀ key, r.snapshot key = r'.snapshot key) ∧ r.keys = r'.keys

/-- It does not matter in which order the samples stood or the publishers took their steps. -/
theorem Sound.alike {c' : Publishing} {samples' : List Sample} (h : c.Sound samples)
    (hdone : c.IsDone) (h' : c'.Sound samples') (hdone' : c'.IsDone) (hperm : samples.Perm samples') :
    Alike c.registry c'.registry := by
  have hkeys (key : String) : (∃ s ∈ samples, s.key = key) ↔ ∃ s ∈ samples', s.key = key := by
    simp only [hperm.mem_iff]
  have hdurations (key : String) : (durations key samples).Perm (durations key samples') :=
    (hperm.filter _).map _
  refine ⟨fun key ↦ ?_, ?_⟩
  · simp only [h.snapshot_of_isDone hdone, h'.snapshot_of_isDone hdone', hkeys,
      Histogram.ofList_perm (hdurations key)]
  · exact (Registry.ascending_keys _).eq_of_mem_iff (Registry.ascending_keys _) fun key ↦
      (h.mem_keys_iff hdone key).trans ((hkeys key).trans (h'.mem_keys_iff hdone' key).symm)

/-- Publishers of any samples take their steps in any order, and once all of them have published, every key
has the histogram of its samples and of no others.  Keys without samples have none, and the published keys
are those of the samples in ascending order.  So the order makes no difference, and the result is that of
publishing one sample after another. -/
theorem published_side_by_side (schedule : List Nat) (hdone : ((start samples).run schedule).IsDone) :
    let r := ((start samples).run schedule).registry
    (∀ key, (∃ s ∈ samples, s.key = key) →
      r.snapshot key = some (.ofList (durations key samples))) ∧
    (∀ key, (¬ ∃ s ∈ samples, s.key = key) → r.snapshot key = none) ∧
    r.keys.Pairwise (· < ·) ∧ (∀ key, key ∈ r.keys ↔ ∃ s ∈ samples, s.key = key) ∧
    (∀ samples' schedule', samples.Perm samples' → ((start samples').run schedule').IsDone →
      Alike r ((start samples').run schedule').registry) ∧
    Alike r (samples.foldl (fun r s ↦ r.publish s) .empty) := by
  intro r
  have hsound (samples : List Sample) (schedule : List Nat) := (sound_start samples).run schedule
  have h := hsound samples schedule
  refine ⟨fun key hkey ↦ ?_, fun key hkey ↦ ?_, Registry.ascending_keys r, h.mem_keys_iff hdone,
    fun samples' schedule' hperm hdone' ↦ h.alike hdone (hsound samples' schedule') hdone' hperm, ?_⟩
  · rw [h.snapshot_of_isDone hdone, if_pos hkey]
  · rw [h.snapshot_of_isDone hdone, if_neg hkey]
  · obtain ⟨c, hserial, hend, hregistry⟩ := exists_sound_foldl_publish samples
    rw [← hregistry]
    exact h.alike hdone hserial hend (.refl samples)

/-- Two publishers of one key find no histogram before either of them claims a place, and a third publishes
another key between their steps. -/
theorem published_side_by_side_crossed :
    let samples : List Sample := [⟨"write", .ofMicroseconds 80⟩, ⟨"write", .ofMicroseconds 7⟩,
      ⟨"read", .ofMicroseconds 200⟩]
    let c := (start samples).run [0, 1, 1, 2, 0, 2, 0, 2, 1]
    c.IsDone ∧ c.registry.snapshot "write" = some (.ofList [.ofMicroseconds 80, .ofMicroseconds 7]) ∧
      c.registry.snapshot "delete" = none ∧ c.registry.keys = ["read", "write"] := by
  intro samples c
  have hdone : c.IsDone := by
    have hstages : ∀ p ∈ c.publishers, p.stage = .done := by decide +kernel
    exact hstages
  obtain ⟨hsome, hnone, hascending, hmem, -⟩ := published_side_by_side _ hdone
  refine ⟨hdone, hsome "write" (by decide), hnone "delete" (by decide),
    hascending.eq_of_mem_iff (by decide) fun key ↦ (hmem key).trans ?_⟩
  simp only [samples, List.mem_cons]
  grind

end Publishing

end ReplicaChain.Latency
