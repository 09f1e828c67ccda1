import ReplicaChain.Proofs.Extent.History

/-!
# Extents that are out of reach

An extent is out of reach once it is deleted, and every extent of a partition is while the partition is
offline.  A deleted extent stays deleted until its partition is removed, whatever else is done to the store:
its number is not given again, and no report mentions it.  An offline partition keeps its extents as they
were, so that nothing is lost until it is brought back online.

An operation on an extent succeeds only if the extent can be worked on, or if it creates the extent where
there is none.  Both ways of being out of reach exclude both.
-/

namespace ReplicaChain.Extent

open Std (ExtTreeMap)

/-! ## Watermarks -/

/-- A list of watermarks has the selected extents that are not deleted, with their sizes. -/
theorem Partition.mem_watermarks {mode : Option Wire.ExtentMode} {p : Partition} {m : Watermark} :
    m ∈ p.watermarks mode ↔ ∃ e, p.extents[m.extent]? = some e ∧ e.deleted = false ∧
      isSelected mode m.extent = true ∧ m.size = .ofNat e.content.size := by
  simp only [watermarks, List.mem_filterMap, Prod.exists,
    ExtTreeMap.mem_toList_iff_getElem?_eq_some, Option.ite_none_right_eq_some, Option.some.injEq,
    Bool.and_eq_true, Bool.not_eq_true']
  constructor
  · rintro ⟨extent, e, he, ⟨hdeleted, hselected⟩, rfl⟩
    exact ⟨e, he, hdeleted, hselected, rfl⟩
  · rintro ⟨e, he, hdeleted, hselected, hsize⟩
    exact ⟨m.extent, e, he, ⟨hdeleted, hselected⟩, by rw [← hsize]⟩

namespace Store

variable {s s' : Store} {op : Operation} {ops : List Operation} {partition extent : UInt64}
  {a : Answer} {extents : ExtTreeMap UInt64 State}

/-- What every operation of a run keeps holds after the run. -/
theorem run_induction {motive : Store → Prop} (hs : motive s)
    (hstep : ∀ t, ∀ op ∈ ops, motive t → motive (engine op t).2) : motive (run ops s) := by
  induction ops generalizing s with
  | nil => exact hs
  | cons op ops ih =>
    have hfirst : motive (engine op s).2 := hstep s op (List.mem_cons_self ..) hs
    exact ih hfirst fun t op' hop' ↦ hstep t op' (List.mem_cons_of_mem _ hop')

/-! ## Operations on one extent -/

/-- An operation fails and leaves the store as it is. -/
def Fails (op : Operation) (s : Store) : Prop :=
  ∃ fault, engine op s = (.error fault, s)

theorem live_of_read {offset : Int64} {size : UInt32} {b : ByteArray}
    (h : s.read partition extent offset size = .ok b) : ∃ e, s.Live partition extent e := by
  unfold read at h
  split at h
  · cases h
  · split at h
    · cases h
    · rename_i p hp
      split at h
      · cases h
      · rename_i e he
        exact ⟨e, p, hp, Partition.live_eq_ok_iff.mp he⟩

/-- An operation on an extent needs one that can be worked on, or creates it where there is none. -/
theorem live_or_fresh_of_target (htarget : op.target = some (partition, extent))
    (h : s.perform op = .ok (a, s')) :
    (∃ e, s.Live partition extent e) ∨
      (s.partitionAt partition).offline = false ∧ s.extentAt partition extent = none := by
  cases op with
  | createExtent q x =>
    obtain ⟨rfl, rfl⟩ : q = partition ∧ x = extent := by simpa [Operation.target] using htarget
    cases effect_of_perform h with
    | queried hop => exact hop.elim
    | found he => exact .inl ⟨_, he⟩
    | created honline he => exact .inr ⟨honline, he⟩
  | write q x =>
    obtain ⟨rfl, rfl⟩ : q = partition ∧ x = extent := by simpa [Operation.target] using htarget
    cases effect_of_perform h with
    | queried hop => exact hop.elim
    | written hp he => exact .inl ⟨_, _, hp, Partition.live_eq_ok_iff.mp he⟩
  | markDelete q x =>
    obtain ⟨rfl, rfl⟩ : q = partition ∧ x = extent := by simpa [Operation.target] using htarget
    cases effect_of_perform h with
    | queried hop => exact hop.elim
    | deleted hp he => exact .inl ⟨_, _, hp, Partition.live_eq_ok_iff.mp he⟩
  | read q x =>
    obtain ⟨rfl, rfl⟩ : q = partition ∧ x = extent := by simpa [Operation.target] using htarget
    obtain ⟨b, hread, -⟩ := exists_of_map_eq_ok h
    exact .inl (live_of_read hread)
  | _ => cases htarget

/-- Where there is neither an extent to work on nor room for a new one, every operation on it fails. -/
theorem fails_of_target (htarget : op.target = some (partition, extent))
    (hlive : ∀ e, ¬ s.Live partition extent e)
    (hfresh : ¬ ((s.partitionAt partition).offline = false ∧ s.extentAt partition extent = none)) :
    s.Fails op := by
  unfold Fails engine
  rcases h : s.perform op with fault | ⟨a, s'⟩
  · exact ⟨fault, rfl⟩
  · rcases live_or_fresh_of_target htarget h with ⟨e, he⟩ | hnone
    · exact absurd he (hlive e)
    · exact absurd hnone hfresh

/-! ## Deleted extents -/

/-- What was deleted stays deleted unless its partition is removed. -/
theorem tombstone_engine (hs : s.extentAt partition extent = some .tombstone)
    (hop : op ≠ .command .deleteDataPartition partition) :
    (engine op s).2.extentAt partition extent = some .tombstone := by
  have hchange := change_engine op s partition extent
  rw [hs] at hchange
  generalize writesTo partition extent [op] s = writes at hchange
  generalize (engine op s).2.extentAt partition extent = after at hchange
  cases hchange with
  | kept => rfl
  | written _ hdeleted => cases hdeleted
  | deleted => rfl
  | removed h => exact absurd h hop

theorem tombstone_run (hs : s.extentAt partition extent = some .tombstone)
    (hops : .command .deleteDataPartition partition ∉ ops) :
    (run ops s).extentAt partition extent = some .tombstone :=
  run_induction (motive := fun t ↦ t.extentAt partition extent = some .tombstone) hs
    fun _ _ hop ht ↦ tombstone_engine ht (ne_of_mem_of_not_mem hop hops)

/-- A deletion that succeeds leaves a tombstone. -/
theorem tombstone_of_markDelete (h : (engine (.markDelete partition extent) s).1 = .ok a) :
    (engine (.markDelete partition extent) s).2.extentAt partition extent = some .tombstone := by
  rcases engine_cases (.markDelete partition extent) s with ⟨fault, heq⟩ | ⟨a, s', heq, heffect⟩
  · rw [heq] at h
    cases h
  · rw [heq]
    cases heffect with
    | queried hop => exact hop.elim
    | deleted hp he => rw [extentAt_setExtent_of_some hp, if_pos ⟨rfl, rfl⟩]

theorem fails_of_tombstone (hs : s.extentAt partition extent = some .tombstone)
    (htarget : op.target = some (partition, extent)) : s.Fails op := by
  refine fails_of_target htarget (fun e he ↦ ?_) (by simp [hs])
  obtain ⟨-, hextent, hdeleted⟩ := live_iff.mp he
  obtain rfl : State.tombstone = e := Option.some.inj (hs.symm.trans hextent)
  cases hdeleted

/-- Both lists of watermarks and the report on the whole partition leave a deleted extent out. -/
theorem unreported_of_tombstone (hs : s.extentAt partition extent = some .tombstone) :
    (∀ mode, ∃ marks, (engine (.watermarks partition mode) s).1 = .ok (.watermarks marks) ∧
      ∀ m ∈ marks, m.extent ≠ extent) ∧
    ∃ marks, (engine (.command .loadDataPartition partition) s).1 =
        .ok (.bytes (reportWatermarks marks).toUTF8) ∧ ∀ m ∈ marks, m.extent ≠ extent := by
  obtain ⟨p, hp, hextent⟩ := Option.bind_eq_some_iff.mp hs
  have hmissing (mode : Option Wire.ExtentMode) : ∀ m ∈ p.watermarks mode, m.extent ≠ extent := by
    rintro m hm rfl
    obtain ⟨e, he, hdeleted, -⟩ := Partition.mem_watermarks.mp hm
    obtain rfl : State.tombstone = e := Option.some.inj (hextent.symm.trans he)
    cases hdeleted
  refine ⟨fun mode ↦ ⟨p.watermarks (some mode), ?_, hmissing _⟩, p.watermarks none, ?_, hmissing _⟩
  · simp [engine, perform, watermarks, hp, Except.map]
  · simp [engine, perform, command, loadReport, hp, Except.map]

/-! ## Offline partitions -/

/-- A partition is there and offline, with these extents. -/
def IsOffline (partition : UInt64) (extents : ExtTreeMap UInt64 State) (s : Store) : Prop :=
  ∃ p, s.partitions[partition]? = some p ∧ p.offline = true ∧ p.extents = extents

theorem IsOffline.offline_partitionAt (h : s.IsOffline partition extents) :
    (s.partitionAt partition).offline = true := by
  obtain ⟨p, hp, hoffline, -⟩ := h
  rw [partitionAt_of_some hp, hoffline]

theorem IsOffline.extents_partitionAt (h : s.IsOffline partition extents) :
    (s.partitionAt partition).extents = extents := by
  obtain ⟨p, hp, -, hextents⟩ := h
  rw [partitionAt_of_some hp, hextents]

theorem IsOffline.of_partition_eq (h : s.IsOffline partition extents)
    (hs : s'.partitions[partition]? = s.partitions[partition]?) : s'.IsOffline partition extents := by
  unfold IsOffline at h ⊢
  rwa [hs]

/-- Another partition may change in any way. -/
theorem IsOffline.setPartition_of_ne (h : s.IsOffline partition extents) {q n : UInt64}
    (hq : partition ≠ q) (p : Partition) :
    { s.setPartition q p with used := n : Store }.IsOffline partition extents := by
  refine h.of_partition_eq ?_
  change (s.setPartition q p).partitions[partition]? = _
  rw [getElem?_setPartition, if_neg hq]

/-- The partition itself may be asked for repair, or be taken offline once more. -/
theorem IsOffline.setPartition_self (h : s.IsOffline partition extents) {p p' : Partition}
    (hp : s.partitions[partition]? = some p) (hoffline : p'.offline = true)
    (hextents : p'.extents = p.extents) : (s.setPartition partition p').IsOffline partition extents := by
  obtain ⟨p₀, hp₀, -, hextents₀⟩ := h
  obtain rfl : p = p₀ := Option.some.inj (hp.symm.trans hp₀)
  exact ⟨p', by rw [getElem?_setPartition, if_pos rfl], hoffline, hextents.trans hextents₀⟩

theorem Effect.isOffline (h : Effect s op s') (hs : s.IsOffline partition extents)
    (hcreate : op ≠ .command .createDataPartition partition)
    (hdelete : op ≠ .command .deleteDataPartition partition) : s'.IsOffline partition extents := by
  have hne {q extent : UInt64} {p : Partition} {e : State} (hp : s.partitions[q]? = some p)
      (he : p.live extent = .ok e) : partition ≠ q := by
    rintro rfl
    have honline := (Partition.live_eq_ok_iff.mp he).1
    rw [← partitionAt_of_some hp, hs.offline_partitionAt] at honline
    cases honline
  cases h with
  | queried | found | missing => exact hs
  | @created q _ honline =>
    refine hs.setPartition_of_ne (n := s.used) (q := q) ?_ _
    rintro rfl
    rw [hs.offline_partitionAt] at honline
    cases honline
  | written hp he => exact hs.setPartition_of_ne (hne hp he) _
  | deleted hp he => exact hs.setPartition_of_ne (hne hp he) _
  | @notified q p hp =>
    by_cases hq : partition = q
    · subst hq
      have hoffline := hs.offline_partitionAt
      rw [partitionAt_of_some hp] at hoffline
      exact hs.setPartition_self hp hoffline rfl
    · exact hs.setPartition_of_ne (n := s.used) hq _
  | @broughtOnline q =>
    refine hs.setPartition_of_ne (n := s.used) (q := q) ?_ _
    rintro rfl
    exact hcreate rfl
  | @takenOffline q p hp =>
    by_cases hq : partition = q
    · subst hq
      exact hs.setPartition_self hp rfl rfl
    · exact hs.setPartition_of_ne (n := s.used) hq _
  | @removed q p hp =>
    refine hs.of_partition_eq ?_
    have hq : q ≠ partition := by
      rintro rfl
      exact hdelete rfl
    rw [ExtTreeMap.getElem?_erase, if_neg (by simpa using hq)]

theorem IsOffline.engine (hs : s.IsOffline partition extents)
    (hcreate : op ≠ .command .createDataPartition partition)
    (hdelete : op ≠ .command .deleteDataPartition partition) :
    (engine op s).2.IsOffline partition extents := by
  rcases engine_cases op s with ⟨fault, heq⟩ | ⟨a, s', heq, heffect⟩ <;> rw [heq]
  · exact hs
  · exact heffect.isOffline hs hcreate hdelete

theorem IsOffline.run (hs : s.IsOffline partition extents)
    (hcreate : .command .createDataPartition partition ∉ ops)
    (hdelete : .command .deleteDataPartition partition ∉ ops) :
    (run ops s).IsOffline partition extents :=
  run_induction hs fun _ _ hop ht ↦
    ht.engine (ne_of_mem_of_not_mem hop hcreate) (ne_of_mem_of_not_mem hop hdelete)

/-- Only a partition that exists can be taken offline. -/
theorem isOffline_of_takeOffline
    (h : (engine (.command .offlineDataPartition partition) s).1 = .ok a) :
    (∃ p, s.partitions[partition]? = some p) ∧
      (engine (.command .offlineDataPartition partition) s).2.IsOffline partition
        (s.partitionAt partition).extents := by
  rcases engine_cases (.command .offlineDataPartition partition) s with
    ⟨fault, heq⟩ | ⟨a, s', heq, heffect⟩
  · rw [heq] at h
    cases h
  · rw [heq]
    cases heffect with
    | queried hop => simp [Operation.IsQuery] at hop
    | takenOffline hp =>
      refine ⟨⟨_, hp⟩, _, by rw [getElem?_setPartition, if_pos rfl], rfl, ?_⟩
      rw [partitionAt_of_some hp]

theorem IsOffline.fails (hs : s.IsOffline partition extents)
    (htarget : op.target = some (partition, extent)) : s.Fails op := by
  have hoffline := hs.offline_partitionAt
  refine fails_of_target htarget (fun e he ↦ ?_) (by simp [hoffline])
  rw [(live_iff.mp he).1] at hoffline
  cases hoffline

/-- The answer to a read is what the store gives. -/
theorem engine_read (partition extent : UInt64) (offset : Int64) (size : UInt32) (s : Store) :
    (engine (.read partition extent offset size) s).1 =
      (s.read partition extent offset size).map .bytes := by
  simp only [engine, perform]
  cases s.read partition extent offset size <;> rfl

/-- What a read gives depends on one partition alone, and there on whether it is offline and on its
extents. -/
theorem read_congr {p p' : Partition} (hp : s.partitions[partition]? = some p)
    (hp' : s'.partitions[partition]? = some p') (hoffline : p'.offline = p.offline)
    (hextents : p'.extents = p.extents) (offset : Int64) (size : UInt32) :
    s'.read partition extent offset size = s.read partition extent offset size := by
  have hlive : p'.live extent = p.live extent := by
    rw [Partition.live, Partition.live, hoffline, hextents]
  simp only [read, hp, hp', hlive]

/-- A partition that was online and is brought back online with the extents that it had answers reads as
it did. -/
theorem IsOffline.read_createPartition {s t : Store} {p : Partition}
    (ht : t.IsOffline partition (s.partitionAt partition).extents)
    (hp : s.partitions[partition]? = some p) (honline : p.offline = false) (extent : UInt64)
    (offset : Int64) (size : UInt32) :
    (t.createPartition partition).read partition extent offset size =
      s.read partition extent offset size := by
  obtain ⟨q, hq, -, hextents⟩ := ht
  rw [partitionAt_of_some hp] at hextents
  have hback : (t.createPartition partition).partitions[partition]? =
      some { t.partitionAt partition with offline := false } := by
    rw [createPartition]
    exact getElem?_setPartition.trans (if_pos rfl)
  rw [partitionAt_of_some hq] at hback
  exact read_congr hp hback honline.symm hextents offset size

/-! ## Out of reach -/

/-- A deletion that succeeded holds until the partition is removed, whatever is done meanwhile: every
operation on the extent fails, no list of watermarks mentions it, and it has no bytes.  From the time when a
partition was taken offline until it is created again or removed, every operation on any of its extents
fails, and the extents with their bytes and tombstones are those that there were, so that every read gives
what it gave before once the partition is back online. -/
theorem withdrawn_unreachable (partition : UInt64) (s : Store) (ops : List Operation) :
    (∀ extent a, (engine (.markDelete partition extent) s).1 = .ok a →
      .command .deleteDataPartition partition ∉ ops →
      let t := run (.markDelete partition extent :: ops) s
      (∀ op, Operation.target op = some (partition, extent) → t.Fails op) ∧
        (∀ mode, ∃ marks, (engine (.watermarks partition mode) t).1 = .ok (.watermarks marks) ∧
          ∀ m ∈ marks, m.extent ≠ extent) ∧
        (∃ marks, (engine (.command .loadDataPartition partition) t).1 =
          .ok (.bytes (reportWatermarks marks).toUTF8) ∧ ∀ m ∈ marks, m.extent ≠ extent) ∧
        t.extentAt partition extent = some .tombstone) ∧
    ∀ a, (engine (.command .offlineDataPartition partition) s).1 = .ok a →
      .command .createDataPartition partition ∉ ops →
      .command .deleteDataPartition partition ∉ ops →
      let t := run (.command .offlineDataPartition partition :: ops) s
      (∀ op extent, Operation.target op = some (partition, extent) → t.Fails op) ∧
        (t.partitionAt partition).extents = (s.partitionAt partition).extents ∧
        ((s.partitionAt partition).offline = false → ∀ extent offset size,
          (engine (.read partition extent offset size)
              (run [.command .createDataPartition partition] t)).1 =
            (engine (.read partition extent offset size) s).1) := by
  refine ⟨fun extent a hdeleted hops ↦ ?_, fun a hoffline hcreate hdelete ↦ ?_⟩
  · have htomb : (run ops (engine (.markDelete partition extent) s).2).extentAt partition extent =
        some .tombstone := tombstone_run (tombstone_of_markDelete hdeleted) hops
    obtain ⟨hlists, hreport⟩ := unreported_of_tombstone htomb
    exact ⟨fun op ↦ fails_of_tombstone htomb, hlists, hreport, htomb⟩
  · obtain ⟨⟨p, hp⟩, hoff⟩ := isOffline_of_takeOffline hoffline
    have hshut : (run ops (engine (.command .offlineDataPartition partition) s).2).IsOffline partition
        (s.partitionAt partition).extents :=
      hoff.run hcreate hdelete
    refine ⟨fun op extent ↦ hshut.fails, hshut.extents_partitionAt, fun honline extent offset size ↦ ?_⟩
    rw [partitionAt_of_some hp] at honline
    have hread := hshut.read_createPartition hp honline extent offset size
    rw [engine_read, engine_read]
    exact congrArg (Except.map Answer.bytes) hread

/-- Three bytes are lost for good with their extent, and the two of the extent beside it are there again
once the partition is back online. -/
theorem withdrawn_unreachable_restored :
    let s := run
      [.createExtent 1 65, .write 1 65 0 ⟨#[1, 2, 3]⟩, .createExtent 1 66, .write 1 66 0 ⟨#[4, 5]⟩]
      (.empty 100)
    (engine (.markDelete 1 65) s).1 = .ok .done ∧
      (engine (.command .offlineDataPartition 1) s).1 = .ok (.bytes .empty) ∧
      (s.partitionAt 1).offline = false ∧
      (engine (.read 1 66 0 2) s).1 = .ok (.bytes ⟨#[4, 5]⟩) ∧
      (run (.markDelete 1 65 :: [.createExtent 1 65]) s).Fails (.createExtent 1 65) ∧
      (run (.command .offlineDataPartition 1 :: [.write 1 66 0 ⟨#[6]⟩]) s).Fails (.read 1 66 0 2) ∧
      (engine (.read 1 66 0 2) (run [.command .createDataPartition 1]
        (run (.command .offlineDataPartition 1 :: [.write 1 66 0 ⟨#[6]⟩]) s))).1 =
          .ok (.bytes ⟨#[4, 5]⟩) := by
  intro s
  have hdeleted : (engine (.markDelete 1 65) s).1 = .ok .done := by decide +kernel
  have hoffline : (engine (.command .offlineDataPartition 1) s).1 = .ok (.bytes .empty) := by
    decide +kernel
  have honline : (s.partitionAt 1).offline = false := by decide +kernel
  have hread : (engine (.read 1 66 0 2) s).1 = .ok (.bytes ⟨#[4, 5]⟩) := by decide +kernel
  have hgone := (withdrawn_unreachable 1 s [.createExtent 1 65]).1 65 _ hdeleted (by decide)
  have hshut := (withdrawn_unreachable 1 s [.write 1 66 0 ⟨#[6]⟩]).2 _ hoffline (by decide) (by decide)
  exact ⟨hdeleted, hoffline, honline, hread, hgone.1 _ rfl, hshut.1 _ _ rfl,
    (hshut.2.2 honline 66 0 2).trans hread⟩

end Store

end ReplicaChain.Extent
