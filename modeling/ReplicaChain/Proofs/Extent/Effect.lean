import ReplicaChain.Extent.Store

/-!
# What operations do to a store

An operation that fails leaves the store as it was.  One that succeeds has one of a few effects: it adds
an extent, writes to one, buries one, changes the state of a partition without touching its extents,
removes a partition, or does nothing.  `Effect` lists them with the conditions under which they occur, so
that what holds of a store after every run is proved effect by effect.
-/

namespace ReplicaChain.Extent

def Operation.IsQuery : Operation → Prop
  | read .. | watermarks .. => True
  | command opcode _ => opcode = .loadDataPartition ∨ opcode = .dataNodeHeartbeat
  | _ => False

theorem Partition.live_eq_ok_iff {extent : UInt64} {p : Partition} {e : State} :
    p.live extent = .ok e ↔
      p.offline = false ∧ p.extents[extent]? = some e ∧ e.deleted = false := by
  unfold Partition.live
  split
  · simp_all
  · split
    · simp_all
    · split <;> grind

namespace Store

variable {s s' : Store} {op : Operation} {partition extent : UInt64} {p : Partition} {e : State}

/-! ## Looking at a store -/

/-- A partition, or a blank one where there is none. -/
def partitionAt (partition : UInt64) (s : Store) : Partition :=
  s.partitions[partition]?.getD .blank

/-- The state of an extent, be it a tombstone or in an offline partition. -/
def extentAt (partition extent : UInt64) (s : Store) : Option State :=
  s.partitions[partition]?.bind (·.extents[extent]?)

/-- An extent can be worked on: it is not deleted and its partition is online. -/
def Live (partition extent : UInt64) (e : State) (s : Store) : Prop :=
  ∃ p, s.partitions[partition]? = some p ∧ p.offline = false ∧ p.extents[extent]? = some e ∧
    e.deleted = false

theorem partitionAt_of_some (hp : s.partitions[partition]? = some p) : s.partitionAt partition = p := by
  rw [partitionAt, hp, Option.getD_some]

theorem extentAt_eq (s : Store) :
    s.extentAt partition extent = (s.partitionAt partition).extents[extent]? := by
  rw [extentAt, partitionAt]
  cases s.partitions[partition]? with
  | none => simp [Partition.blank]
  | some p => rfl

theorem live_iff :
    s.Live partition extent e ↔
      (s.partitionAt partition).offline = false ∧ s.extentAt partition extent = some e ∧
        e.deleted = false := by
  unfold Live partitionAt extentAt
  cases s.partitions[partition]? <;> simp

theorem Live.exists_live (he : s.Live partition extent e) :
    ∃ p, s.partitions[partition]? = some p ∧ p.live extent = .ok e := by
  obtain ⟨p, hp, hstate⟩ := he
  exact ⟨p, hp, Partition.live_eq_ok_iff.mpr hstate⟩

/-! ## The effects -/

/-- What a successful operation did to a store. -/
inductive Effect (s : Store) : Operation → Store → Prop where
  | queried {op : Operation} (hop : op.IsQuery) : Effect s op s
  /-- The extent to be created was there. -/
  | found {partition extent : UInt64} {e : State} (he : s.Live partition extent e) :
    Effect s (.createExtent partition extent) s
  | created {partition extent : UInt64} (honline : (s.partitionAt partition).offline = false)
      (he : s.extentAt partition extent = none) :
    Effect s (.createExtent partition extent)
      (s.setExtent partition extent (s.partitionAt partition) .blank)
  | written {partition extent : UInt64} {offset : Int64} {bytes : ByteArray} {p : Partition}
      {e : State} (hp : s.partitions[partition]? = some p) (he : p.live extent = .ok e)
      (hoffset : ¬ offset < 0) (hstart : offset.toNatClampNeg ≤ e.content.size)
      (hroom : ¬ s.capacity <
        s.used + .ofNat (offset.toNatClampNeg + bytes.size - e.content.size)) :
    Effect s (.write partition extent offset bytes)
      { s.setExtent partition extent p
          { e with content := Bytes.overwrite offset.toNatClampNeg bytes e.content } with
        used := s.used + .ofNat (offset.toNatClampNeg + bytes.size - e.content.size) }
  | deleted {partition extent : UInt64} {p : Partition} {e : State}
      (hp : s.partitions[partition]? = some p) (he : p.live extent = .ok e) :
    Effect s (.markDelete partition extent)
      { s.setExtent partition extent p .tombstone with used := s.used - .ofNat e.content.size }
  | notified {partition : UInt64} {p : Partition} (hp : s.partitions[partition]? = some p) :
    Effect s (.notifyRepair partition)
      (s.setPartition partition { p with repairRequests := p.repairRequests + 1 })
  | broughtOnline {partition : UInt64} :
    Effect s (.command .createDataPartition partition) (s.createPartition partition)
  | takenOffline {partition : UInt64} {p : Partition} (hp : s.partitions[partition]? = some p) :
    Effect s (.command .offlineDataPartition partition)
      (s.setPartition partition { p with offline := true })
  | removed {partition : UInt64} {p : Partition} (hp : s.partitions[partition]? = some p) :
    Effect s (.command .deleteDataPartition partition)
      { s with
        partitions := s.partitions.erase partition
        used := s.used - .ofNat p.size }
  /-- The partition to be removed was not there. -/
  | missing {partition : UInt64} (hp : s.partitions[partition]? = none) :
    Effect s (.command .deleteDataPartition partition) s

theorem exists_of_map_eq_ok {α β : Type} {f : α → β} {x : Except StorageFault α} {b : β}
    (h : x.map f = .ok b) : ∃ a, x = .ok a ∧ f a = b := by
  cases x with
  | error fault => cases h
  | ok a => exact ⟨a, rfl, Except.ok.inj h⟩

theorem effect_of_createExtent (h : s.createExtent partition extent = .ok s') :
    Effect s (.createExtent partition extent) s' := by
  unfold createExtent at h
  dsimp only at h
  -- The partition that is created if need be has a name.
  change (if (s.partitionAt partition).offline then _ else _) = _ at h
  split at h
  · cases h
  · rename_i honline
    simp only [Bool.not_eq_true] at honline
    split at h
    · rename_i e he
      split at h
      · cases h
      · rename_i hdeleted
        cases h
        simp only [Bool.not_eq_true] at hdeleted
        refine .found (live_iff.mpr ⟨honline, ?_, hdeleted⟩)
        rw [extentAt_eq]
        exact he
    · rename_i he
      cases h
      refine .created honline ?_
      rw [extentAt_eq]
      exact he

theorem effect_of_write {offset : Int64} {bytes : ByteArray}
    (h : s.write partition extent offset bytes = .ok s') :
    Effect s (.write partition extent offset bytes) s' := by
  unfold write at h
  split at h
  · cases h
  · rename_i hoffset
    split at h
    · cases h
    · rename_i p hp
      split at h
      · cases h
      · rename_i e he
        dsimp only at h
        split at h
        · cases h
        · rename_i hstart
          split at h
          · cases h
          · rename_i hroom
            cases h
            exact .written hp he hoffset (Nat.le_of_not_lt hstart) hroom

theorem effect_of_markDelete (h : s.markDelete partition extent = .ok s') :
    Effect s (.markDelete partition extent) s' := by
  unfold markDelete at h
  split at h
  · cases h
  · rename_i p hp
    split at h
    · cases h
    · rename_i e he
      cases h
      exact .deleted hp he

theorem effect_of_notifyRepair (h : s.notifyRepair partition = .ok s') :
    Effect s (.notifyRepair partition) s' := by
  unfold notifyRepair at h
  split at h
  · cases h
  · rename_i p hp
    cases h
    exact .notified hp

theorem effect_of_command {opcode : Wire.Opcode} {body : ByteArray}
    (h : s.command opcode partition = .ok (body, s')) :
    Effect s (.command opcode partition) s' := by
  unfold command at h
  split at h
  · cases h
    exact .broughtOnline
  · cases h
    unfold deletePartition
    split
    · rename_i hp
      exact .missing hp
    · rename_i p hp
      exact .removed hp
  · unfold takeOffline at h
    split at h
    · cases h
    · rename_i p hp
      cases h
      exact .takenOffline hp
  · rcases hreport : s.loadReport partition with _ | report
    · simp [hreport, Except.map] at h
    · simp only [hreport, Except.map, Except.ok.injEq, Prod.mk.injEq] at h
      exact h.2 ▸ .queried (.inl rfl)
  · cases h
    exact .queried (.inr rfl)
  · cases h

/-- Every success has one of the effects. -/
theorem effect_of_perform {a : Answer} (h : s.perform op = .ok (a, s')) : Effect s op s' := by
  cases op with
  | createExtent =>
    obtain ⟨_, hx, heq⟩ := exists_of_map_eq_ok h
    cases heq
    exact effect_of_createExtent hx
  | write =>
    obtain ⟨_, hx, heq⟩ := exists_of_map_eq_ok h
    cases heq
    exact effect_of_write hx
  | read =>
    obtain ⟨_, -, heq⟩ := exists_of_map_eq_ok h
    cases heq
    exact .queried trivial
  | markDelete =>
    obtain ⟨_, hx, heq⟩ := exists_of_map_eq_ok h
    cases heq
    exact effect_of_markDelete hx
  | watermarks =>
    obtain ⟨_, -, heq⟩ := exists_of_map_eq_ok h
    cases heq
    exact .queried trivial
  | notifyRepair =>
    obtain ⟨_, hx, heq⟩ := exists_of_map_eq_ok h
    cases heq
    exact effect_of_notifyRepair hx
  | command =>
    obtain ⟨_, hx, heq⟩ := exists_of_map_eq_ok h
    cases heq
    exact effect_of_command hx

/-- An operation fails and changes nothing, or succeeds with one of the effects. -/
theorem engine_cases (op : Operation) (s : Store) :
    (∃ fault, engine op s = (.error fault, s)) ∨
      ∃ a s', engine op s = (.ok a, s') ∧ Effect s op s' := by
  unfold engine
  rcases h : s.perform op with fault | ⟨a, s'⟩
  · exact .inl ⟨fault, rfl⟩
  · exact .inr ⟨a, s', rfl, effect_of_perform h⟩

/-! ## Runs -/

/-- The store after a run of operations, failures included. -/
def run (ops : List Operation) (s : Store) : Store :=
  ops.foldl (fun s op ↦ (engine op s).2) s

@[simp]
theorem run_nil (s : Store) : run [] s = s := rfl

theorem run_append (before after : List Operation) (s : Store) :
    run (before ++ after) s = run after (run before s) :=
  List.foldl_append

theorem run_concat (ops : List Operation) (op : Operation) (s : Store) :
    run (ops ++ [op]) s = (engine op (run ops s)).2 := by
  rw [run_append]
  rfl

/-! ## Extents after a change of one partition -/

variable {q x n : UInt64}

theorem getElem?_setPartition :
    (s.setPartition partition p).partitions[q]? =
      if q = partition then some p else s.partitions[q]? := by
  rw [setPartition, Std.ExtTreeMap.getElem?_insert]
  simp only [Std.compare_eq_iff_eq, @eq_comm _ partition]

theorem extentAt_setPartition :
    (s.setPartition partition p).extentAt q x =
      if q = partition then p.extents[x]? else s.extentAt q x := by
  rw [extentAt, getElem?_setPartition]
  split <;> rfl

theorem extentAt_setPartition_of_extents_eq
    (hp : p.extents = (s.partitionAt partition).extents) :
    (s.setPartition partition p).extentAt q x = s.extentAt q x := by
  rw [extentAt_setPartition]
  split
  · rename_i hq
    rw [hp, hq, ← extentAt_eq]
  · rfl

theorem extentAt_createPartition :
    (s.createPartition partition).extentAt q x = s.extentAt q x :=
  extentAt_setPartition_of_extents_eq (p := { s.partitionAt partition with offline := false }) rfl

theorem extentAt_setExtent (hp : p.extents = (s.partitionAt partition).extents) :
    (s.setExtent partition extent p e).extentAt q x =
      if q = partition ∧ x = extent then some e else s.extentAt q x := by
  rw [setExtent, extentAt_setPartition]
  split
  · rename_i hq
    subst hq
    rw [Std.ExtTreeMap.getElem?_insert, hp, ← extentAt_eq]
    simp only [Std.compare_eq_iff_eq, true_and, @eq_comm _ extent]
  · simp_all

theorem extentAt_setExtent_of_some (hp : s.partitions[partition]? = some p) :
    { s.setExtent partition extent p e with used := n : Store }.extentAt q x =
      if q = partition ∧ x = extent then some e else s.extentAt q x :=
  extentAt_setExtent (by rw [partitionAt_of_some hp])

theorem extentAt_erase :
    { s with partitions := s.partitions.erase partition, used := n : Store }.extentAt q x =
      if q = partition then none else s.extentAt q x := by
  rw [extentAt, Std.ExtTreeMap.getElem?_erase]
  simp only [Std.compare_eq_iff_eq, @eq_comm _ partition]
  split <;> rfl

end Store

end ReplicaChain.Extent
