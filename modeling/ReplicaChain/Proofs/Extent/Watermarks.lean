import ReplicaChain.Proofs.Extent.Accounting
import ReplicaChain.Proofs.Extent.ReportReading
import ReplicaChain.Proofs.Extent.Withdrawal

/-!
# Watermarks

Repair compares lists of watermarks, so they have to tell just which extents there are and how long they
are.  The list of a partition ascends strictly because it follows the keys of a tree map; the lists of its
two halves are what a filter takes from it and what the filter leaves.  A length fits in its machine word,
and the lengths add up to the used bytes, because the books of the store are in order.  They are after
every run in which no write overflows the counter of used bytes, however large the capacity is.
-/

namespace ReplicaChain.Extent

open Std (ExtTreeMap)

/-! ## The lists of a partition -/

/-- Each watermark is of an extent with a higher number than the one before. -/
def Ascending (marks : List Watermark) : Prop :=
  marks.Pairwise fun a b ↦ a.extent < b.extent

theorem isSelected_tiny {extent : UInt64} :
    isSelected (some .tiny) extent = true ↔ 1 ≤ extent ∧ extent ≤ 64 :=
  (Bool.and_eq_true_iff ..).trans (and_congr decide_eq_true_iff decide_eq_true_iff)

theorem isSelected_normal {extent : UInt64} :
    isSelected (some .normal) extent = true ↔ ¬ (1 ≤ extent ∧ extent ≤ 64) := by
  rw [← isSelected_tiny]
  simp [isSelected]

namespace Partition

variable {p : Partition} {mode : Option Wire.ExtentMode}

theorem ascending_watermarks (mode : Option Wire.ExtentMode) (p : Partition) :
    Ascending (p.watermarks mode) := by
  have hkeys := p.extents.ordered_keys_toList
  refine hkeys.filterMap _ ?_
  rintro ⟨k, e⟩ ⟨k', e'⟩ hlt m hm m' hm'
  simp only [Option.ite_none_right_eq_some, Option.some.injEq] at hm hm'
  rw [← hm.2, ← hm'.2]
  exact Std.compare_eq_lt.mp hlt

/-- A half of the extents is what a filter takes from all of them. -/
theorem watermarks_eq_filter (mode : Option Wire.ExtentMode) (p : Partition) :
    p.watermarks mode = (p.watermarks none).filter fun m ↦ isSelected mode m.extent := by
  rw [watermarks, watermarks, List.filter_filterMap]
  congr 1
  funext x
  obtain ⟨k, e⟩ := x
  have hall : isSelected none k = true := rfl
  cases hkept : e.deleted <;> cases hselected : isSelected mode k <;>
    simp [hkept, hselected, hall, Option.filter_some]

theorem watermarks_perm (p : Partition) :
    (p.watermarks none).Perm (p.watermarks (some .tiny) ++ p.watermarks (some .normal)) := by
  rw [watermarks_eq_filter (some .tiny), watermarks_eq_filter (some .normal)]
  exact (List.filter_append_perm (fun m : Watermark ↦ isSelected (some .tiny) m.extent) _).symm

/-- The list of all extents is made of the two halves by merging them in ascending order. -/
theorem watermarks_eq_merge (p : Partition) :
    p.watermarks none = (p.watermarks (some .tiny)).merge (p.watermarks (some .normal))
      fun a b ↦ decide (a.extent ≤ b.extent) := by
  let le (a b : Watermark) : Bool := decide (a.extent ≤ b.extent)
  have hweak (mode : Option Wire.ExtentMode) : (p.watermarks mode).Pairwise fun a b ↦ le a b := by
    refine (ascending_watermarks mode p).imp ?_
    intro a b hlt
    exact decide_eq_true (UInt64.le_of_lt hlt)
  have hmerged := @List.pairwise_merge _ le
    (fun a b c hab hbc ↦ decide_eq_true
      (UInt64.le_trans (of_decide_eq_true hab) (of_decide_eq_true hbc)))
    (fun a b ↦ by simpa [le] using UInt64.le_total a.extent b.extent)
    _ _ (hweak (some .tiny)) (hweak (some .normal))
  have hperm : (p.watermarks none).Perm
      ((p.watermarks (some .tiny)).merge (p.watermarks (some .normal)) le) :=
    p.watermarks_perm.trans (List.merge_perm_append le).symm
  refine List.Perm.eq_of_pairwise ?_ (hweak none) hmerged hperm
  -- Two watermarks of one extent in one list are the same watermark.
  intro a b ha hb hab hba
  have hextent : a.extent = b.extent :=
    UInt64.le_antisymm (of_decide_eq_true hab) (of_decide_eq_true hba)
  obtain ⟨e, he, -, -, hsize⟩ := mem_watermarks.mp ha
  obtain ⟨e', he', -, -, hsize'⟩ := mem_watermarks.mp (hperm.mem_iff.mpr hb)
  rw [hextent, he'] at he
  cases he
  cases a
  cases b
  simp_all

/-- The sizes that are reported add up to the bytes of the partition. -/
theorem sum_watermarks (hsize : ∀ (extent : UInt64) (e : State), p.extents[extent]? = some e →
      e.size < 2 ^ 64 ∧ (e.deleted = true → e.size = 0)) :
    ((p.watermarks none).map (·.size.toNat)).sum = p.size := by
  have hentries : ∀ x ∈ p.extents.toList, x.2.size < 2 ^ 64 ∧ (x.2.deleted = true → x.2.size = 0) :=
    fun x hx ↦ hsize x.1 x.2 (ExtTreeMap.mem_toList_iff_getElem?_eq_some.mp hx)
  rw [size_eq_weigh, weigh, watermarks]
  generalize p.extents.toList = l at hentries
  induction l with
  | nil => rfl
  | cons x l ih =>
    obtain ⟨hword, htombstone⟩ := hentries x List.mem_cons_self
    have hrest := ih fun y hy ↦ hentries y (List.mem_cons_of_mem x hy)
    rw [List.filterMap_cons, List.map_cons, List.sum_cons]
    cases hdeleted : x.2.deleted with
    | true => simpa [hdeleted, htombstone hdeleted] using hrest
    | false =>
      have htoNat : (UInt64.ofNat x.2.content.size).toNat = x.2.size :=
        UInt64.toNat_ofNat_of_lt' hword
      simpa [hdeleted, isSelected, htoNat] using hrest

end Partition

namespace Store

variable {capacity partition : UInt64} {s : Store} {p : Partition} {op : Operation} {m : Watermark}
  {mode : Option Wire.ExtentMode}

/-! ## Stores that are reached -/

/-- A store is reached from an empty one by operations, failures included, each of whose writes fits in a
machine word beside the bytes that are used at that moment. -/
inductive Reached (capacity : UInt64) : Store → Prop where
  | empty : Reached capacity (.empty capacity)
  | step {s : Store} {op : Operation} (hs : Reached capacity s) (hfits : op.Fits s.used) :
    Reached capacity (engine op s).2

theorem Reached.exists_accounted (hs : Reached capacity s) : ∃ count, Accounted capacity count s := by
  induction hs with
  | empty => exact ⟨0, accounted_empty capacity⟩
  | step _ hfits ih =>
    obtain ⟨count, h⟩ := ih
    exact ⟨count + 1, h.engine hfits⟩

/-- A run whose writes fit on top of a full store does not leave the stores that are reached. -/
theorem Reached.run {ops : List Operation} (hs : Reached capacity s)
    (hfits : ∀ op ∈ ops, op.Fits capacity) : Reached capacity (run ops s) := by
  refine run_induction hs fun t op hop ht ↦ ?_
  obtain ⟨count, h⟩ := ht.exists_accounted
  exact ht.step (h.fits (hfits op hop))

/-! ## What the lists tell -/

/-- A watermark tells the number and the length of an extent that is not deleted. -/
def Marks (partition : UInt64) (m : Watermark) (s : Store) : Prop :=
  ∃ e, s.extentAt partition m.extent = some e ∧ e.deleted = false ∧ m.size.toNat = e.content.size

/-- Three lists tell about the tiny extents of a partition, the others and all of them. -/
structure ReportedBy (partition : UInt64) (tiny normal all : List Watermark) (s : Store) : Prop where
  ascending_tiny : Ascending tiny
  ascending_normal : Ascending normal
  disjoint : ∀ m ∈ tiny, ∀ m' ∈ normal, m.extent ≠ m'.extent
  mem_tiny : ∀ m, m ∈ tiny ↔ s.Marks partition m ∧ 1 ≤ m.extent ∧ m.extent ≤ 64
  mem_normal : ∀ m, m ∈ normal ↔ s.Marks partition m ∧ ¬ (1 ≤ m.extent ∧ m.extent ≤ 64)
  ascending_all : Ascending all
  merged : all = tiny.merge normal fun a b ↦ decide (a.extent ≤ b.extent)

theorem extentAt_of_some (hp : s.partitions[partition]? = some p) (extent : UInt64) :
    s.extentAt partition extent = p.extents[extent]? := by
  rw [extentAt, hp, Option.bind_some]

theorem Reached.size_lt (hs : Reached capacity s) (hp : s.partitions[partition]? = some p)
    {extent : UInt64} {e : State} (he : p.extents[extent]? = some e) : e.size < 2 ^ 64 := by
  obtain ⟨count, h⟩ := hs.exists_accounted
  rw [← extentAt_of_some hp] at he
  exact Nat.lt_of_le_of_lt (h.size_le_used he) s.used.toNat_lt

theorem Reached.mem_watermarks (hs : Reached capacity s) (hp : s.partitions[partition]? = some p) :
    m ∈ p.watermarks mode ↔ s.Marks partition m ∧ isSelected mode m.extent = true := by
  have hword {extent : UInt64} {e : State} (he : p.extents[extent]? = some e) :
      m.size = .ofNat e.content.size ↔ m.size.toNat = e.content.size := by
    have htoNat : (UInt64.ofNat e.content.size).toNat = e.content.size :=
      UInt64.toNat_ofNat_of_lt' (hs.size_lt hp he)
    rw [← UInt64.toNat_inj, htoNat]
  rw [Partition.mem_watermarks, Marks]
  simp only [extentAt_of_some hp]
  constructor
  · rintro ⟨e, he, hkept, hselected, hsize⟩
    exact ⟨⟨e, he, hkept, (hword he).mp hsize⟩, hselected⟩
  · rintro ⟨⟨e, he, hkept, hsize⟩, hselected⟩
    exact ⟨e, he, hkept, hselected, (hword he).mpr hsize⟩

theorem Reached.reportedBy (hs : Reached capacity s) (hp : s.partitions[partition]? = some p) :
    s.ReportedBy partition (p.watermarks (some .tiny)) (p.watermarks (some .normal))
      (p.watermarks none) where
  ascending_tiny := p.ascending_watermarks _
  ascending_normal := p.ascending_watermarks _
  disjoint m hm m' hm' heq := by
    have htiny := isSelected_tiny.mp ((hs.mem_watermarks hp).mp hm).2
    have hnormal := isSelected_normal.mp ((hs.mem_watermarks hp).mp hm').2
    rw [← heq] at hnormal
    exact hnormal htiny
  mem_tiny m := by rw [hs.mem_watermarks hp, isSelected_tiny]
  mem_normal m := by rw [hs.mem_watermarks hp, isSelected_normal]
  ascending_all := p.ascending_watermarks _
  merged := p.watermarks_eq_merge

/-! ## What the answers tell -/

theorem engine_watermarks (hp : s.partitions[partition]? = some p) (mode : Wire.ExtentMode) :
    (engine (.watermarks partition mode) s).1 = .ok (.watermarks (p.watermarks (some mode))) := by
  simp [engine, perform, watermarks, hp, Except.map]

theorem engine_load (hp : s.partitions[partition]? = some p) :
    (engine (.command .loadDataPartition partition) s).1 =
      .ok (.bytes (reportWatermarks (p.watermarks none)).toUTF8) := by
  simp [engine, perform, command, loadReport, hp, Except.map]

/-- The list of a partition as it is read from what the master is told when it loads the partition. -/
def loaded (partition : UInt64) (s : Store) : Option (List Watermark) :=
  match (engine (.command .loadDataPartition partition) s).1 with
  | .error _ => none
  | .ok a => readWatermarks a.body

theorem loaded_eq (hp : s.partitions[partition]? = some p) :
    s.loaded partition = some (p.watermarks none) := by
  rw [loaded, engine_load hp]
  exact readWatermarks_reportWatermarks _

/-- The sizes that the master is told of all partitions are the bytes that are used. -/
theorem Reached.sum_loaded (hs : Reached capacity s) :
    (s.partitions.keys.map fun q ↦ (((s.loaded q).getD []).map (·.size.toNat)).sum).sum =
      s.used.toNat := by
  obtain ⟨count, h⟩ := hs.exists_accounted
  rw [h.used_eq, stored, ← ExtTreeMap.map_fst_toList_eq_keys, List.map_map]
  congr 1
  refine List.map_congr_left fun x hx ↦ ?_
  have hp : s.partitions[x.1]? = some x.2 := ExtTreeMap.mem_toList_iff_getElem?_eq_some.mp hx
  rw [Function.comp_apply, loaded_eq hp, Option.getD_some]
  refine Partition.sum_watermarks fun extent e he ↦ ⟨hs.size_lt hp he, ?_⟩
  rw [← extentAt_of_some hp] at he
  exact h.tombstone he

end Store

end ReplicaChain.Extent
