import Mathlib.Algebra.Ring.Nat
import Mathlib.Data.List.Perm.Basic
import ReplicaChain.Latency.Histogram

/-!
# Histograms as distributions

A histogram is a summary of the durations that were recorded: every bucket has the number of those that
lie between its bounds, and beside them stand how many there were, their sum and the longest.  The order
of recording leaves no trace.  Walking the buckets up to a rank ends in the bucket of the duration that has
this rank among the sorted ones, because sorting the durations also sorts their buckets.
-/

namespace ReplicaChain.Latency

/-! ## Bounds -/

theorem Duration.toNat_microseconds (d : Duration) :
    d.microseconds.toNat = min (d.nanoseconds / 1000) (2 ^ 64 - 1) := by
  rw [Duration.microseconds, UInt64.toNat_ofNat']
  omega

/-- A number of microseconds is at most the bound of a bucket, unless it has none, and above the bounds of
all buckets before it. -/
def InBucket (us : UInt64) (i : Fin bucketCount) : Prop :=
  (∀ b ∈ bounds[i.val]?, us ≤ b) ∧ ∀ b ∈ bounds.take i, b < us

instance (us : UInt64) (i : Fin bucketCount) : Decidable (InBucket us i) :=
  inferInstanceAs (Decidable (_ ∧ _))

theorem findIdx_eq_iff {α : Type} (p : α → Bool) (l : List α) (i : Nat) (hi : i ≤ l.length) :
    l.findIdx p = i ↔ (∀ a ∈ l[i]?, p a) ∧ ∀ a ∈ l.take i, p a = false := by
  induction l generalizing i with
  | nil => simp_all
  | cons a l ih =>
    rw [List.findIdx_cons]
    cases i with
    | zero => cases h : p a <;> simp [h]
    | succ i =>
      have hi := ih i (Nat.le_of_succ_le_succ hi)
      cases h : p a <;> simp_all

/-- Every number of microseconds lies in one bucket. -/
theorem inBucket_iff {us : UInt64} {i : Fin bucketCount} : InBucket us i ↔ bucketOf us = i := by
  have h := findIdx_eq_iff (us ≤ ·) bounds i (Nat.lt_succ_iff.mp i.isLt)
  simp only [decide_eq_true_eq, decide_eq_false_iff_not, UInt64.not_le] at h
  rw [InBucket, ← h, Fin.ext_iff]
  rfl

/-- More microseconds never lie in an earlier bucket. -/
theorem bucketOf_mono {us us' : UInt64} (h : us ≤ us') : bucketOf us ≤ bucketOf us' := by
  have hle : bounds.findIdx (us ≤ ·) ≤ bounds.findIdx (us' ≤ ·) :=
    List.findIdx_le_findIdx fun b _ hb ↦ by
      simp only [decide_eq_true_eq] at hb ⊢
      exact UInt64.le_trans h hb
  exact hle

namespace Histogram

/-! ## What is recorded -/

theorem buckets_foldl (ds : List Duration) (h : Histogram) (i : Fin bucketCount) :
    (ds.foldl (fun h d ↦ h.record d) h).buckets[i] =
      h.buckets[i] + .ofNat (ds.countP fun d ↦ bucketOf d.microseconds = i) := by
  induction ds generalizing h with
  | nil => simp
  | cons d ds ih =>
    have hrecord : (h.record d).buckets[i] =
        h.buckets[i] + .ofNat (if bucketOf d.microseconds = i then 1 else 0) := by
      by_cases hi : bucketOf d.microseconds = i
      · simp [record, hi]
      · simp [record, hi, Vector.getElem_set_ne _ _ (Fin.val_ne_of_ne hi)]
    rw [List.foldl_cons, ih, hrecord, List.countP_cons, UInt64.add_assoc, ← UInt64.ofNat_add,
      Nat.add_comm]
    simp

theorem count_foldl (ds : List Duration) (h : Histogram) :
    (ds.foldl (fun h d ↦ h.record d) h).count = h.count + .ofNat ds.length := by
  induction ds generalizing h with
  | nil => simp
  | cons d ds ih =>
    rw [List.foldl_cons, ih, List.length_cons, Nat.add_comm, UInt64.ofNat_add, ← UInt64.add_assoc]
    rfl

theorem sum_foldl (ds : List Duration) (h : Histogram) :
    (ds.foldl (fun h d ↦ h.record d) h).sum =
      h.sum + .ofNat (ds.map fun d ↦ d.microseconds.toNat).sum := by
  induction ds generalizing h with
  | nil => simp
  | cons d ds ih =>
    rw [List.foldl_cons, ih, List.map_cons, List.sum_cons, UInt64.ofNat_add, UInt64.ofNat_toNat,
      ← UInt64.add_assoc]
    rfl

theorem longest_record (d : Duration) (h : Histogram) :
    (h.record d).longest =
      if h.longest ≤ d.microseconds then d.microseconds else h.longest :=
  rfl

/-- The longest duration is at least as long as every one recorded, and it is one of them. -/
theorem longest_foldl (ds : List Duration) (h : Histogram) :
    let longest := (ds.foldl (fun h d ↦ h.record d) h).longest
    h.longest ≤ longest ∧ (∀ d ∈ ds, d.microseconds ≤ longest) ∧
      (longest = h.longest ∨ longest ∈ ds.map Duration.microseconds) := by
  induction ds generalizing h with
  | nil => simp
  | cons d ds ih =>
    obtain ⟨hfirst, hall, hmem⟩ := ih (h.record d)
    have hrecord := longest_record d h
    split at hrecord <;> rename_i hle <;> rw [hrecord] at hfirst hmem
    · exact ⟨UInt64.le_trans hle hfirst, List.forall_mem_cons.mpr ⟨hfirst, hall⟩,
        .inr (List.mem_cons.mpr hmem)⟩
    · have hlt := UInt64.le_of_lt (UInt64.not_le.mp hle)
      exact ⟨hfirst, List.forall_mem_cons.mpr ⟨UInt64.le_trans hlt hfirst, hall⟩,
        hmem.imp_right (List.mem_cons_of_mem _)⟩

variable {ds ds' : List Duration}

theorem buckets_ofList (ds : List Duration) (i : Fin bucketCount) :
    (ofList ds).buckets[i] = .ofNat (ds.countP fun d ↦ InBucket d.microseconds i) := by
  have h := buckets_foldl ds empty i
  have hempty : empty.buckets[i] = 0 := Vector.getElem_replicate i.isLt
  simp only [inBucket_iff]
  rwa [hempty, UInt64.zero_add] at h

theorem count_ofList (ds : List Duration) : (ofList ds).count = .ofNat ds.length :=
  (count_foldl ds empty).trans (UInt64.zero_add _)

theorem sum_ofList (ds : List Duration) :
    (ofList ds).sum = .ofNat (ds.map fun d ↦ d.microseconds.toNat).sum :=
  (sum_foldl ds empty).trans (UInt64.zero_add _)

theorem le_longest {d : Duration} (hd : d ∈ ds) : d.microseconds ≤ (ofList ds).longest :=
  (longest_foldl ds empty).2.1 d hd

theorem longest_mem (h : ds ≠ []) : (ofList ds).longest ∈ ds.map Duration.microseconds := by
  obtain ⟨d, ds, rfl⟩ := List.exists_cons_of_ne_nil h
  have hfirst : (empty.record d).longest = d.microseconds :=
    (longest_record d empty).trans (if_pos UInt64.zero_le)
  rw [List.map_cons, List.mem_cons, ← hfirst]
  exact (longest_foldl ds (empty.record d)).2.2

theorem longest_mono (h : ds ⊆ ds') : (ofList ds).longest ≤ (ofList ds').longest := by
  by_cases hds : ds = []
  · rw [hds]
    exact UInt64.zero_le
  · obtain ⟨d, hd, hlongest⟩ := List.mem_map.mp (longest_mem hds)
    rw [← hlongest]
    exact le_longest (h hd)

/-- Durations can be recorded in any order. -/
theorem ofList_perm (h : ds.Perm ds') : ofList ds = ofList ds' := by
  have hbuckets : (ofList ds).buckets = (ofList ds').buckets := by
    ext i hi
    have hcount (ds : List Duration) := congrArg UInt64.toNat (buckets_ofList ds ⟨i, hi⟩)
    exact (hcount ds).trans (h.countP_eq _ ▸ (hcount ds').symm)
  have hcount : (ofList ds).count = (ofList ds').count := by
    rw [count_ofList, count_ofList, h.length_eq]
  have hsum : (ofList ds).sum = (ofList ds').sum := by
    rw [sum_ofList, sum_ofList, (h.map _).sum_nat]
  have hlongest : (ofList ds).longest = (ofList ds').longest :=
    UInt64.le_antisymm (longest_mono h.subset) (longest_mono h.symm.subset)
  rcases hds : ofList ds with ⟨_, _, _, _⟩
  rcases hds' : ofList ds' with ⟨_, _, _, _⟩
  simp_all

/-- One more duration is recorded, wherever it stands. -/
theorem ofList_cons (d : Duration) (ds : List Duration) :
    ofList (d :: ds) = (ofList ds).record d := by
  rw [ofList_perm (List.perm_append_singleton d ds).symm, ofList, List.foldl_append]
  rfl

/-! ## Counts -/

theorem toNat_buckets (hlength : ds.length < 2 ^ 64) (i : Fin bucketCount) :
    (ofList ds).buckets[i].toNat = ds.countP fun d ↦ InBucket d.microseconds i := by
  rw [buckets_ofList, UInt64.toNat_ofNat']
  exact Nat.mod_eq_of_lt (Nat.lt_of_le_of_lt List.countP_le_length hlength)

theorem toNat_count (hlength : ds.length < 2 ^ 64) : (ofList ds).count.toNat = ds.length := by
  rw [count_ofList, UInt64.toNat_ofNat']
  exact Nat.mod_eq_of_lt hlength

def counts (h : Histogram) : List Nat :=
  h.buckets.toList.map UInt64.toNat

theorem length_counts (h : Histogram) : h.counts.length = bucketCount := by
  simp [counts]

theorem countP_lt_succ {α : Type} (f : α → Nat) (l : List α) (k : Nat) :
    l.countP (f · < k + 1) = l.countP (f · < k) + l.countP (f · = k) := by
  induction l with
  | nil => rfl
  | cons a l ih =>
    simp only [List.countP_cons, ih, decide_eq_true_eq]
    split <;> split <;> split <;> omega

/-- The first buckets together have the durations that lie in none of the others. -/
theorem sum_take_counts (hlength : ds.length < 2 ^ 64) {k : Nat} (hk : k ≤ bucketCount) :
    ((ofList ds).counts.take k).sum =
      ds.countP fun d ↦ (bucketOf d.microseconds).val < k := by
  induction k with
  | zero => simp
  | succ k ih =>
    have hbucket := toNat_buckets hlength ⟨k, hk⟩
    simp only [inBucket_iff, Fin.ext_iff] at hbucket
    have hlt : k < (ofList ds).counts.length := (length_counts _).symm ▸ hk
    rw [List.take_succ_eq_append_getElem hlt, List.sum_append, List.sum_singleton,
      ih (Nat.le_of_succ_le hk), countP_lt_succ (fun d : Duration ↦ (bucketOf d.microseconds).val), ← hbucket]
    simp [counts]

theorem sum_counts (hlength : ds.length < 2 ^ 64) : (ofList ds).counts.sum = ds.length := by
  have h := sum_take_counts hlength (Nat.le_refl bucketCount)
  rw [List.take_of_length_le (Nat.le_of_eq (length_counts _))] at h
  rw [h, List.countP_eq_length]
  exact fun d _ ↦ decide_eq_true (bucketOf d.microseconds).isLt

/-! ## Ranks -/

/-- The walk ends in the bucket in which the rank is reached. -/
theorem exists_bucketWithRank (rank : UInt64) (ns : List UInt64) (index : Nat) (seen : UInt64)
    (hfits : seen.toNat + (ns.map UInt64.toNat).sum < 2 ^ 64) (hlow : seen.toNat < rank.toNat)
    (hhigh : rank.toNat ≤ seen.toNat + (ns.map UInt64.toNat).sum) :
    ∃ k < ns.length, bucketWithRank rank index seen ns = some (index + k) ∧
      seen.toNat + ((ns.map UInt64.toNat).take k).sum < rank.toNat ∧
      rank.toNat ≤ seen.toNat + ((ns.map UInt64.toNat).take (k + 1)).sum := by
  induction ns generalizing index seen with
  | nil =>
    rw [List.map_nil, List.sum_nil] at hhigh
    omega
  | cons n ns ih =>
    rw [List.map_cons, List.sum_cons] at hfits hhigh
    have hseen : (seen + n).toNat = seen.toNat + n.toNat := by
      rw [UInt64.toNat_add]
      exact Nat.mod_eq_of_lt (by omega)
    rw [bucketWithRank]
    split <;> rename_i hreached <;> rw [UInt64.le_iff_toNat_le, hseen] at hreached
    · exact ⟨0, Nat.succ_pos _, rfl, by simpa using hlow, by simpa using hreached⟩
    · obtain ⟨k, hk, hwalk, hbelow, habove⟩ :=
        ih (index + 1) (seen + n) (by omega) (by omega) (by omega)
      refine ⟨k + 1, Nat.succ_lt_succ hk, by rw [hwalk]; congr 1; omega, ?_, ?_⟩ <;>
        rw [List.map_cons, List.take_succ_cons, List.sum_cons] <;> omega

/-- In a sorted list those that have a property stand first, if with each of them all lesser ones do. -/
theorem getElem_iff_lt_countP {α : Type} {r : α → α → Prop} {l : List α} (hl : l.Pairwise r)
    {p : α → Bool} (hp : ∀ a b, r a b → p b → p a) {j : Nat} (hj : j < l.length) :
    p l[j] ↔ j < l.countP p := by
  induction l generalizing j with
  | nil => exact absurd hj (Nat.not_lt_zero j)
  | cons a l ih =>
    obtain ⟨hfirst, hrest⟩ := List.pairwise_cons.mp hl
    cases ha : p a with
    | true =>
      rw [List.countP_cons_of_pos ha]
      cases j with
      | zero => simp [ha]
      | succ j => simpa using ih hrest (Nat.lt_of_succ_lt_succ hj)
    | false =>
      have hnone : ∀ b ∈ a :: l, ¬ p b := List.forall_mem_cons.mpr
        ⟨by simp [ha], fun b hb hpb ↦ by simp [hp a b (hfirst b hb) hpb] at ha⟩
      rw [List.countP_eq_zero.mpr hnone]
      simpa using hnone _ (List.getElem_mem hj)

/-- The microseconds of durations in ascending order. -/
def ascending (ds : List Duration) : List UInt64 :=
  (ds.map Duration.microseconds).mergeSort (· ≤ ·)

theorem ascending_perm (ds : List Duration) :
    (ascending ds).Perm (ds.map Duration.microseconds) :=
  List.mergeSort_perm _ _

theorem pairwise_ascending (ds : List Duration) : (ascending ds).Pairwise (· ≤ ·) := by
  let le (a b : UInt64) : Bool := decide (a ≤ b)
  have htrans (a b c : UInt64) (hab : le a b = true) (hbc : le b c = true) : le a c = true := by
    simp only [le, decide_eq_true_eq] at *
    exact UInt64.le_trans hab hbc
  have htotal (a b : UInt64) : (le a b || le b a) = true := by
    simpa [le] using UInt64.le_total a b
  have h := List.pairwise_mergeSort htrans htotal (ds.map Duration.microseconds)
  simp only [le, decide_eq_true_eq] at h
  exact h

theorem countP_ascending (ds : List Duration) (p : UInt64 → Bool) :
    (ascending ds).countP p = ds.countP fun d ↦ p d.microseconds := by
  rw [(ascending_perm ds).countP_eq, List.countP_map]
  rfl

theorem length_ascending (ds : List Duration) : (ascending ds).length = ds.length := by
  rw [(ascending_perm ds).length_eq, List.length_map]

theorem mem_of_getElem?_ascending {i : Nat} {us : UInt64} (h : (ascending ds)[i]? = some us) :
    us ∈ ds.map Duration.microseconds :=
  (ascending_perm ds).mem_iff.mp (List.mem_of_getElem? h)

theorem le_of_getElem?_ascending {i j : Nat} {us us' : UInt64} (hij : i ≤ j)
    (hi : (ascending ds)[i]? = some us) (hj : (ascending ds)[j]? = some us') : us ≤ us' := by
  obtain ⟨hilt, rfl⟩ := List.getElem?_eq_some_iff.mp hi
  obtain ⟨hjlt, rfl⟩ := List.getElem?_eq_some_iff.mp hj
  rcases Nat.eq_or_lt_of_le hij with rfl | hlt
  · exact UInt64.le_refl _
  · exact List.pairwise_iff_getElem.mp (pairwise_ascending ds) i j hilt hjlt hlt

/-- If the duration of a rank is not above a bound, so are as many durations as the rank says. -/
theorem le_countP_of_ascending {t : Nat} {us b : UInt64} (hus : (ascending ds)[t - 1]? = some us)
    (hb : us ≤ b) : t ≤ ds.countP fun d ↦ d.microseconds ≤ b := by
  obtain ⟨hlt, rfl⟩ := List.getElem?_eq_some_iff.mp hus
  have hdown (a c : UInt64) (hac : a ≤ c) (hc : decide (c ≤ b)) : decide (a ≤ b) = true :=
    decide_eq_true (UInt64.le_trans hac (of_decide_eq_true hc))
  have hcount := (getElem_iff_lt_countP (pairwise_ascending ds) hdown hlt).mp (decide_eq_true hb)
  rw [countP_ascending ds fun us ↦ us ≤ b] at hcount
  omega

/-- What is told of the durations of a bucket: its upper bound, or the longest duration if it has none. -/
def told (h : Histogram) (i : Fin bucketCount) : UInt64 :=
  bounds[i.val]?.getD h.longest

theorem le_told {us : UInt64} (hus : us ∈ ds.map Duration.microseconds) :
    us ≤ (ofList ds).told (bucketOf us) := by
  obtain ⟨hbound, -⟩ := inBucket_iff.mpr (rfl : bucketOf us = bucketOf us)
  rw [told]
  cases h : bounds[(bucketOf us).val]? with
  | some b => exact hbound b h
  | none =>
    obtain ⟨d, hd, rfl⟩ := List.mem_map.mp hus
    exact le_longest hd

theorem told_mono {us us' : UInt64} (hus' : us' ∈ ds.map Duration.microseconds) (hle : us ≤ us') :
    (ofList ds).told (bucketOf us) ≤ (ofList ds).told (bucketOf us') := by
  by_cases heq : bucketOf us = bucketOf us'
  · rw [heq]
    exact UInt64.le_refl _
  · -- An earlier bucket has a bound, and whatever lies in a later one is above it.
    have hlt : (bucketOf us).val < (bucketOf us').val :=
      Nat.lt_of_le_of_ne (bucketOf_mono hle) (Fin.val_ne_of_ne heq)
    have hlength : (bucketOf us).val < bounds.length :=
      Nat.lt_of_lt_of_le hlt (Nat.lt_succ_iff.mp (bucketOf us').isLt)
    have hbound : (ofList ds).told (bucketOf us) = bounds[(bucketOf us).val] := by
      rw [told, List.getElem?_eq_getElem hlength, Option.getD_some]
    have habove := (inBucket_iff.mpr (rfl : bucketOf us' = bucketOf us')).2 _
      (List.mem_take_iff_getElem.mpr ⟨_, Nat.lt_min.mpr ⟨hlt, hlength⟩, rfl⟩)
    rw [hbound]
    exact UInt64.le_trans (UInt64.le_of_lt habove) (le_told hus')

/-- Walking up to a rank ends in the bucket of the duration that has it. -/
theorem boundOfRank_ofList (hlength : ds.length < 2 ^ 64) {t : UInt64} (hpos : 1 ≤ t)
    (hle : t ≤ (ofList ds).count) :
    ∃ us, (ascending ds)[t.toNat - 1]? = some us ∧
      (ofList ds).boundOfRank t = (ofList ds).told (bucketOf us) := by
  rw [UInt64.le_iff_toNat_le, UInt64.toNat_one] at hpos
  rw [UInt64.le_iff_toNat_le, toNat_count hlength] at hle
  have hsum := sum_counts hlength
  obtain ⟨k, hk, hwalk, hbelow, habove⟩ :=
    exists_bucketWithRank t (ofList ds).buckets.toList 0 0
      (by rw [← counts, hsum, UInt64.toNat_zero]; omega) (by rw [UInt64.toNat_zero]; omega)
      (by rw [← counts, hsum, UInt64.toNat_zero]; omega)
  rw [Vector.length_toList] at hk
  rw [← counts, sum_take_counts hlength (Nat.le_of_lt hk), UInt64.toNat_zero, Nat.zero_add,
    ← countP_ascending ds fun us ↦ (bucketOf us).val < k] at hbelow
  rw [← counts, sum_take_counts hlength hk, UInt64.toNat_zero, Nat.zero_add,
    ← countP_ascending ds fun us ↦ (bucketOf us).val < k + 1] at habove
  have hlt : t.toNat - 1 < (ascending ds).length := by
    rw [length_ascending]
    omega
  have hdown (k : Nat) (a b : UInt64) (hab : a ≤ b) (hb : decide ((bucketOf b).val < k)) :
      decide ((bucketOf a).val < k) = true :=
    decide_eq_true (Nat.lt_of_le_of_lt (bucketOf_mono hab) (of_decide_eq_true hb))
  have hsorted (k : Nat) := getElem_iff_lt_countP (pairwise_ascending ds) (hdown k) hlt
  have hnot := mt (hsorted k).mp (by omega)
  have hin := (hsorted (k + 1)).mpr (by omega)
  simp only [decide_eq_true_eq] at hnot hin
  have hbucket : (bucketOf (ascending ds)[t.toNat - 1]).val = k := by omega
  refine ⟨_, List.getElem?_eq_getElem hlt, ?_⟩
  rw [boundOfRank, hwalk, told, hbucket, Nat.zero_add]

/-- A histogram of fewer than `2 ^ 64` durations, in whatever order they were recorded, has in every bucket
the number of those that lie between its bounds, all of them together, their sum modulo `2 ^ 64` and the
longest.  Up to a rank, it tells the bound of the bucket in which the duration of that rank lies, or the
longest duration if that is the last bucket; so that at least as many durations are not above what is told,
and a higher rank is never told less.  A percentile is what is told of its rank. -/
theorem ofList_summarizes {ds : List Duration} (hlength : ds.length < 2 ^ 64) :
    let h := ofList ds
    (∀ i : Fin bucketCount,
      h.buckets[i].toNat = ds.countP fun d ↦ InBucket d.microseconds i) ∧
    h.counts.sum = h.count.toNat ∧ h.count.toNat = ds.length ∧
    (∀ d ∈ ds, d.microseconds ≤ h.longest) ∧
    (ds ≠ [] → h.longest ∈ ds.map Duration.microseconds) ∧
    h.sum.toNat = (ds.map fun d ↦ min (d.nanoseconds / 1000) (2 ^ 64 - 1)).sum % 2 ^ 64 ∧
    (∀ ds', ds.Perm ds' → ofList ds' = h) ∧
    (∀ t : UInt64, 1 ≤ t → t ≤ h.count →
      (∃ us i, (ascending ds)[t.toNat - 1]? = some us ∧ InBucket us i ∧
        h.boundOfRank t = bounds[i.val]?.getD h.longest) ∧
      t.toNat ≤ ds.countP fun d ↦ d.microseconds ≤ h.boundOfRank t) ∧
    (∀ t t' : UInt64, 1 ≤ t → t ≤ t' → t' ≤ h.count → h.boundOfRank t ≤ h.boundOfRank t') ∧
    ∀ p : Float, ds ≠ [] → 0.0 ≤ p → p ≤ 100.0 →
      h.percentile p = h.boundOfRank (rankOf p h.count) := by
  intro h
  refine ⟨toNat_buckets hlength, ?_, toNat_count hlength, fun d ↦ le_longest, longest_mem, ?_,
    fun ds' hperm ↦ (ofList_perm hperm).symm, fun t hpos hle ↦ ?_, fun t t' hpos hle hle' ↦ ?_,
    fun p hds hp hp' ↦ ?_⟩
  · rw [sum_counts hlength, toNat_count hlength]
  · simp only [h, sum_ofList, UInt64.toNat_ofNat', Duration.toNat_microseconds]
  · obtain ⟨us, hus, htold⟩ := boundOfRank_ofList hlength hpos hle
    refine ⟨⟨us, bucketOf us, hus, inBucket_iff.mpr rfl, htold⟩, le_countP_of_ascending hus ?_⟩
    rw [htold]
    exact le_told (mem_of_getElem?_ascending hus)
  · obtain ⟨us, hus, htold⟩ := boundOfRank_ofList hlength hpos (UInt64.le_trans hle hle')
    obtain ⟨us', hus', htold'⟩ := boundOfRank_ofList hlength (UInt64.le_trans hpos hle) hle'
    have hranks := Nat.sub_le_sub_right (UInt64.le_iff_toNat_le.mp hle) 1
    rw [htold, htold']
    exact told_mono (mem_of_getElem?_ascending hus') (le_of_getElem?_ascending hranks hus hus')
  · have hcount : h.count ≠ 0 := fun hzero ↦
      hds (List.length_eq_zero_iff.mp ((toNat_count hlength).symm.trans (congrArg _ hzero)))
    rw [percentile, if_neg hcount, if_pos (by simp [hp, hp'])]

/-- One duration lies on a bound and one above it, and two are longer than every bound, the longest of them
with more microseconds than fit in 64 bits. -/
theorem ofList_summarizes_saturated :
    let ds : List Duration := [⟨10 ^ 30⟩, .ofParts 9 0, .ofMicroseconds 51, .ofMicroseconds 50]
    let h := ofList ds
    ds.length < 2 ^ 64 ∧ h.counts.sum = 4 ∧ h.sum.toNat = 9000100 ∧
      ascending ds = [50, 51, 9000000, 18446744073709551615] ∧ h.boundOfRank 2 = 100 ∧
      2 ≤ ds.countP (fun d ↦ d.microseconds ≤ 100) ∧ h.boundOfRank 2 ≤ h.boundOfRank 3 := by
  intro ds h
  have hlength : ds.length < 2 ^ 64 := by decide
  obtain ⟨-, hcounts, hcount, -, -, hsum, -, hranks, hmono, -⟩ := ofList_summarizes hlength
  have hascending : ascending ds = [50, 51, 9000000, 18446744073709551615] :=
    ((ascending_perm ds).trans (by decide)).eq_of_pairwise (fun _ _ _ _ ↦ UInt64.le_antisymm)
      (pairwise_ascending ds) (by decide)
  obtain ⟨⟨us, i, hus, hi, htold⟩, hmany⟩ := hranks 2 (by decide) (by decide)
  have hfifty : us = 51 := by simpa [hascending] using hus.symm
  have hsecond : i = 1 := (inBucket_iff.mp hi).symm.trans (hfifty ▸ by decide)
  have hhundred : h.boundOfRank 2 = 100 := htold.trans (hsecond ▸ rfl)
  exact ⟨hlength, hcounts.trans hcount, hsum.trans (by decide), hascending, hhundred,
    hhundred ▸ hmany, hmono 2 3 (by decide) (by decide) (by decide)⟩

end Histogram

end ReplicaChain.Latency
