import ReplicaChain.Proofs.Extent.History

/-!
# Operations that may be repeated

A write that succeeded finds, when it comes again, an extent that holds what it writes and is long enough.
It needs no space, and it leaves the store as it is, however full the store may be.  An extent that was
created is there when it is to be created again.
-/

namespace ReplicaChain

/-- What was overwritten may be overwritten again by the same bytes. -/
theorem Bytes.overwrite_overwrite {offset : Nat} {data b : ByteArray} (h : offset ≤ b.size) :
    overwrite offset data (overwrite offset data b) = overwrite offset data b := by
  have hagain : offset ≤ (overwrite offset data b).size := by
    rw [size_overwrite h]
    exact Nat.le_trans h (Nat.le_max_left ..)
  apply ByteArray.ext
  apply Array.ext_getElem?
  intro i
  rw [getElem?_overwrite hagain, getElem?_overwrite h]
  split <;> rfl

namespace Extent

/-! ## Insertions in maps -/

section Maps

variable {β : Type} {m : Std.ExtTreeMap UInt64 β} {k k' : UInt64} {v v' : β}

theorem insert_self (h : m[k]? = some v) : m.insert k v = m := by
  apply Std.ExtTreeMap.ext_getElem?
  intro i
  rw [Std.ExtTreeMap.getElem?_insert]
  split
  · rename_i hi
    rw [← Std.compare_eq_iff_eq.mp hi, h]
  · rfl

theorem insert_insert : (m.insert k v).insert k v' = m.insert k v' := by
  apply Std.ExtTreeMap.ext_getElem?
  intro i
  simp only [Std.ExtTreeMap.getElem?_insert]
  split <;> rfl

theorem insert_comm (hk : k ≠ k') : (m.insert k v).insert k' v' = (m.insert k' v').insert k v := by
  apply Std.ExtTreeMap.ext_getElem?
  intro i
  simp only [Std.ExtTreeMap.getElem?_insert, Std.compare_eq_iff_eq]
  split
  · rename_i hi
    rw [← hi, if_neg hk]
  · rfl

end Maps

/-! ## Operations carried out twice -/

/-- Whether an operation has no further effect when it is carried out again. -/
def Operation.IsRepeatable : Operation → Prop
  | createExtent .. | write .. => True
  | _ => False

namespace Partition

variable {extent : UInt64} {p : Partition} {e e' : State}

def withExtent (extent : UInt64) (e : State) (p : Partition) : Partition :=
  { p with extents := p.extents.insert extent e }

theorem live_withExtent (hp : p.offline = false) (he : e.deleted = false) :
    (p.withExtent extent e).live extent = .ok e := by
  rw [live_eq_ok_iff]
  exact ⟨hp, by simp [withExtent], he⟩

theorem withExtent_withExtent :
    (p.withExtent extent e).withExtent extent e' = p.withExtent extent e' := by
  simp only [withExtent, insert_insert]

end Partition

namespace Store

variable {s s' : Store} {op : Operation} {partition extent : UInt64} {p p' : Partition} {e : State}
  {a : Answer}

theorem setExtent_eq :
    s.setExtent partition extent p e = s.setPartition partition (p.withExtent extent e) := rfl

theorem setPartition_setPartition {n : UInt64} :
    { s.setPartition partition p with used := n : Store }.setPartition partition p' =
      { s.setPartition partition p' with used := n } := by
  simp only [setPartition, insert_insert]

theorem getElem?_setPartition_self :
    (s.setPartition partition p).partitions[partition]? = some p := by
  rw [getElem?_setPartition, if_pos rfl]

theorem createExtent_of_live (he : s.Live partition extent e) :
    s.createExtent partition extent = .ok s := by
  obtain ⟨p, hp, honline, hextent, hkept⟩ := he
  simp [createExtent, hp, honline, hextent, hkept]

/-- An extent that was created is found. -/
theorem createExtent_again (h : s.createExtent partition extent = .ok s') :
    s'.createExtent partition extent = .ok s' := by
  cases effect_of_createExtent h with
  | queried hop => exact hop.elim
  | found he => exact h
  | created honline he =>
    let p := (s.partitionAt partition).withExtent extent .blank
    have hextent : p.extents[extent]? = some .blank := by simp [p, Partition.withExtent]
    have hlive : (s.setPartition partition p).Live partition extent .blank :=
      ⟨p, getElem?_setPartition_self, honline, hextent, rfl⟩
    exact createExtent_of_live hlive

/-- Bytes that were written are written again where they are, and need no space. -/
theorem write_again {offset : Int64} {bytes : ByteArray}
    (h : s.write partition extent offset bytes = .ok s') :
    s'.write partition extent offset bytes = .ok s' := by
  cases effect_of_write h with
  | queried hop => exact hop.elim
  | @written _ _ _ _ p e hp he hoffset hstart hroom =>
    let e' : State := { e with content := Bytes.overwrite offset.toNatClampNeg bytes e.content }
    let p' := p.withExtent extent e'
    let used := s.used + .ofNat (offset.toNatClampNeg + bytes.size - e.content.size)
    let s' : Store := { s.setPartition partition p' with used }
    obtain ⟨honline, -, hkept⟩ := Partition.live_eq_ok_iff.mp he
    have hpartition : s'.partitions[partition]? = some p' :=
      getElem?_setPartition_self (s := s)
    have hlive : p'.live extent = .ok e' := Partition.live_withExtent honline hkept
    have hsize : e'.content.size = max e.content.size (offset.toNatClampNeg + bytes.size) :=
      Bytes.size_overwrite hstart
    have hreaches : ¬ e'.content.size < offset.toNatClampNeg := by omega
    have hnothing : offset.toNatClampNeg + bytes.size - e'.content.size = 0 := by omega
    have hused : used + .ofNat 0 = used := by simp
    have hcontent : Bytes.overwrite offset.toNatClampNeg bytes e'.content = e'.content :=
      Bytes.overwrite_overwrite hstart
    have hroom' : ¬ s'.capacity < s'.used := hroom
    change s'.write partition extent offset bytes = .ok s'
    simp only [write, if_neg hoffset, hpartition, hlive]
    rw [if_neg hreaches, hnothing, hcontent, hused, if_neg hroom', setExtent_eq,
      Partition.withExtent_withExtent, setPartition_setPartition]

theorem answer_of_isRepeatable (hop : op.IsRepeatable) (h : s.perform op = .ok (a, s')) :
    a = .done := by
  cases op with
  | createExtent | write =>
    obtain ⟨_, -, heq⟩ := exists_of_map_eq_ok h
    exact (Prod.mk.inj heq).1.symm
  | _ => exact hop.elim

/-- An operation that succeeded succeeds again, with the same answer, and leaves the store as it is. -/
theorem perform_again (hop : op.IsRepeatable) (h : s.perform op = .ok (a, s')) :
    s'.perform op = .ok (a, s') := by
  cases op with
  | createExtent partition extent =>
    obtain ⟨t, hcreate, ht⟩ := exists_of_map_eq_ok h
    obtain ⟨rfl, rfl⟩ := Prod.mk.inj ht
    rw [perform, createExtent_again hcreate]
    rfl
  | write partition extent offset bytes =>
    obtain ⟨t, hwrite, ht⟩ := exists_of_map_eq_ok h
    obtain ⟨rfl, rfl⟩ := Prod.mk.inj ht
    rw [perform, write_again hwrite]
    rfl
  | _ => exact hop.elim

end Store

end Extent

end ReplicaChain
