import Mathlib.Algebra.Ring.Nat
import ReplicaChain.Proofs.Extent.Effect

/-!
# Accounting for space

A store keeps the number of used bytes in a machine word beside its extents and adjusts it with every
write and deletion.  The number is always the sum over all extents, so it never exceeds the capacity, and
no addition or subtraction of it leaves the range of the word.  Hence a write is refused for want of
space just when the bytes that are really stored leave no room for what it would add.

The sums run over tree maps.  Replacing a value replaces its summand, and everything below follows from
this.
-/

namespace ReplicaChain.Extent

open Std (ExtTreeMap)

/-! ## Sums over maps -/

section Sums

variable {β : Type} {f : β → Nat} {m : ExtTreeMap UInt64 β} {k : UInt64} {v : β}

def weigh (f : β → Nat) (m : ExtTreeMap UInt64 β) : Nat :=
  (m.toList.map fun entry ↦ f entry.2).sum

theorem nodup_toList (m : ExtTreeMap UInt64 β) : m.toList.Nodup := by
  refine m.distinct_keys_toList.imp ?_
  rintro a _ hne rfl
  exact hne (Std.compare_eq_iff_eq.mpr rfl)

theorem toList_perm_of_getElem? (h : m[k]? = some v) :
    m.toList.Perm ((k, v) :: (m.erase k).toList) := by
  have hfresh : (k, v) ∉ (m.erase k).toList := by
    simp [ExtTreeMap.mem_toList_iff_getElem?_eq_some]
  rw [List.perm_ext_iff_of_nodup (nodup_toList m) (List.nodup_cons.mpr ⟨hfresh, nodup_toList _⟩)]
  rintro ⟨k', v'⟩
  rw [List.mem_cons, ExtTreeMap.mem_toList_iff_getElem?_eq_some,
    ExtTreeMap.mem_toList_iff_getElem?_eq_some, ExtTreeMap.getElem?_erase]
  by_cases hk : k = k'
  · subst hk
    simp [h, eq_comm]
  · simp [hk, Ne.symm hk]

theorem weigh_erase (h : m[k]? = some v) : weigh f (m.erase k) + f v = weigh f m := by
  have hsum := ((toList_perm_of_getElem? h).map fun entry ↦ f entry.2).sum_nat
  simp only [List.map_cons, List.sum_cons] at hsum
  rw [weigh, weigh]
  omega

theorem weigh_erase_elim (f : β → Nat) (m : ExtTreeMap UInt64 β) (k : UInt64) :
    weigh f (m.erase k) + m[k]?.elim 0 f = weigh f m := by
  cases h : m[k]? with
  | none =>
    have herase : m.erase k = m := by
      apply ExtTreeMap.ext_getElem?
      intro k'
      rw [ExtTreeMap.getElem?_erase]
      split
      · rename_i hk
        rw [← Std.compare_eq_iff_eq.mp hk, h]
      · rfl
    simp [herase]
  | some v => exact weigh_erase h

/-- A value that is put in a map takes the place of the one under its key. -/
theorem weigh_insert (f : β → Nat) (m : ExtTreeMap UInt64 β) (k : UInt64) (v : β) :
    weigh f (m.insert k v) + m[k]?.elim 0 f = weigh f m + f v := by
  -- Both sums are compared with that of the map without the key.
  have herase : (m.insert k v).erase k = m.erase k := by
    apply ExtTreeMap.ext_getElem?
    intro k'
    simp only [ExtTreeMap.getElem?_erase, ExtTreeMap.getElem?_insert]
    split <;> rfl
  have hnew : weigh f ((m.insert k v).erase k) + f v = weigh f (m.insert k v) :=
    weigh_erase (by simp)
  have hold := weigh_erase_elim f m k
  rw [herase] at hnew
  omega

theorem weigh_empty (f : β → Nat) : weigh f (∅ : ExtTreeMap UInt64 β) = 0 := by
  rw [weigh, ExtTreeMap.toList_eq_nil_iff.mpr rfl]
  rfl

theorem le_weigh (h : m[k]? = some v) : f v ≤ weigh f m := by
  rw [← weigh_erase h]
  exact Nat.le_add_left _ _

end Sums

/-! ## The bytes of a store -/

def State.size (e : State) : Nat :=
  e.content.size

theorem Partition.size_eq_weigh (p : Partition) : p.size = weigh State.size p.extents := by
  rw [Partition.size, weigh]
  generalize p.extents.toList = l
  induction l with
  | nil => rfl
  | cons entry l ih => simp only [List.map_cons, Bytes.totalSize_cons, List.sum_cons, ih, State.size]

namespace Store

variable {s s' : Store} {op : Operation} {partition extent : UInt64} {p : Partition} {e : State}

def stored (s : Store) : Nat :=
  (s.partitions.toList.map fun entry ↦ entry.2.size).sum

theorem stored_eq_weigh (s : Store) : s.stored = weigh Partition.size s.partitions := rfl

theorem size_partitionAt (s : Store) (partition : UInt64) :
    (s.partitionAt partition).size = s.partitions[partition]?.elim 0 Partition.size := by
  rw [partitionAt]
  cases s.partitions[partition]? with
  | none => rw [Option.getD_none, Partition.size_eq_weigh, Partition.blank, weigh_empty]; rfl
  | some p => rfl

theorem stored_setPartition (s : Store) (partition : UInt64) (p : Partition) :
    (s.setPartition partition p).stored + (s.partitionAt partition).size = s.stored + p.size := by
  rw [stored_eq_weigh, stored_eq_weigh, size_partitionAt]
  exact weigh_insert Partition.size s.partitions partition p

theorem stored_setPartition_of_extents_eq (hp : p.extents = (s.partitionAt partition).extents) :
    (s.setPartition partition p).stored = s.stored := by
  have hsum := stored_setPartition s partition p
  have hsize : p.size = (s.partitionAt partition).size := by
    rw [Partition.size_eq_weigh, Partition.size_eq_weigh, hp]
  omega

/-- A new state of an extent takes the place of the old one in the sum. -/
theorem stored_setExtent (s : Store) (partition extent : UInt64) (e : State) :
    (s.setExtent partition extent (s.partitionAt partition) e).stored +
        (s.extentAt partition extent).elim 0 State.size = s.stored + e.size := by
  have houter := stored_setPartition s partition
    { s.partitionAt partition with extents := (s.partitionAt partition).extents.insert extent e }
  have hinner := weigh_insert State.size (s.partitionAt partition).extents extent e
  rw [← extentAt_eq] at hinner
  simp only [Partition.size_eq_weigh] at houter
  rw [setExtent]
  omega

theorem size_le_stored (hp : s.partitions[partition]? = some p) : p.size ≤ s.stored :=
  le_weigh hp

theorem content_le_stored (he : s.extentAt partition extent = some e) : e.size ≤ s.stored := by
  obtain ⟨p, hp, hextent⟩ := Option.bind_eq_some_iff.mp he
  calc
    e.size ≤ p.size := by rw [Partition.size_eq_weigh]; exact le_weigh hextent
    p.size ≤ s.stored := size_le_stored hp

/-! ## Machine words -/

theorem toNat_add_ofNat {a : UInt64} {n : Nat} (h : a.toNat + n < 2 ^ 64) :
    (a + .ofNat n).toNat = a.toNat + n := by
  have hn : n < UInt64.size := Nat.lt_of_le_of_lt (Nat.le_add_left n _) h
  rw [UInt64.toNat_add, UInt64.toNat_ofNat_of_lt' hn, Nat.mod_eq_of_lt h]

theorem toNat_sub_ofNat {a : UInt64} {n : Nat} (h : n ≤ a.toNat) :
    (a - .ofNat n).toNat + n = a.toNat := by
  have hn : (UInt64.ofNat n).toNat = n :=
    UInt64.toNat_ofNat_of_lt' (Nat.lt_of_le_of_lt h a.toNat_lt)
  rw [UInt64.toNat_sub_of_le _ _ (by rw [UInt64.le_iff_toNat_le, hn]; exact h), hn]
  omega

def growth (offset : Int64) (bytes : ByteArray) (e : State) : Nat :=
  offset.toNatClampNeg + bytes.size - e.content.size

/-- The numbers that an operation adds and subtracts in machine words come out exact: those of the
counter of used bytes, the ends of the ranges that reads and writes are about, and the count of requests
for repair. -/
def Exact (op : Operation) (s : Store) : Prop :=
  match op with
  | .write partition extent offset bytes => ∀ e, s.Live partition extent e →
    offset.toNatClampNeg ≤ e.content.size →
      offset.toNatClampNeg + bytes.size < 2 ^ 64 ∧
        (s.used + .ofNat (growth offset bytes e)).toNat = s.used.toNat + growth offset bytes e
  | .read _ _ offset size => offset.toNatClampNeg + size.toNat < 2 ^ 64
  | .markDelete partition extent => ∀ e, s.Live partition extent e →
    (s.used - .ofNat e.content.size).toNat + e.content.size = s.used.toNat
  | .notifyRepair partition => ∀ p : Partition, s.partitions[partition]? = some p →
    (p.repairRequests + 1).toNat = p.repairRequests.toNat + 1
  | .command .deleteDataPartition partition => ∀ p : Partition, s.partitions[partition]? = some p →
    (s.used - .ofNat p.size).toNat + p.size = s.used.toNat
  | _ => True

/-! ## The books -/

/-- The books of a store that has carried out `count` operations are in order. -/
structure Accounted (capacity : UInt64) (count : Nat) (s : Store) : Prop where
  capacity_eq : s.capacity = capacity
  used_eq : s.used.toNat = s.stored
  used_le : s.used ≤ capacity
  tombstone : ∀ {partition extent : UInt64} {e : State},
    s.extentAt partition extent = some e → e.deleted = true → e.size = 0
  repairs_le : ∀ {partition : UInt64} {p : Partition}, s.partitions[partition]? = some p →
    p.repairRequests.toNat ≤ count

variable {capacity used : UInt64} {count count' : Nat}

theorem accounted_empty (capacity : UInt64) : Accounted capacity 0 (empty capacity) where
  capacity_eq := rfl
  used_eq := by rw [stored_eq_weigh, empty, weigh_empty]; rfl
  used_le := UInt64.zero_le
  tombstone := by simp [empty, extentAt]
  repairs_le := by simp [empty]

theorem Accounted.mono (h : Accounted capacity count s) (hcount : count ≤ count') :
    Accounted capacity count' s :=
  { h with repairs_le := fun hp ↦ Nat.le_trans (h.repairs_le hp) hcount }

theorem Accounted.repairs_partitionAt (h : Accounted capacity count s) (partition : UInt64) :
    (s.partitionAt partition).repairRequests.toNat ≤ count := by
  rw [partitionAt]
  cases hp : s.partitions[partition]? with
  | none => exact Nat.zero_le _
  | some p => exact h.repairs_le hp

theorem Accounted.setPartition (h : Accounted capacity count s)
    (hp : p.extents = (s.partitionAt partition).extents)
    (hrepairs : p.repairRequests.toNat ≤ count') (hcount : count ≤ count') :
    Accounted capacity count' (s.setPartition partition p) where
  capacity_eq := h.capacity_eq
  used_eq := by rw [stored_setPartition_of_extents_eq hp]; exact h.used_eq
  used_le := h.used_le
  tombstone := by
    intro q x e he
    rw [extentAt_setPartition_of_extents_eq hp] at he
    exact h.tombstone he
  repairs_le := by
    intro q p' hp'
    rw [getElem?_setPartition] at hp'
    split at hp'
    · cases hp'
      exact hrepairs
    · exact Nat.le_trans (h.repairs_le hp') hcount

theorem Accounted.setExtent (h : Accounted capacity count s)
    (hused : used.toNat + (s.extentAt partition extent).elim 0 State.size = s.used.toNat + e.size)
    (hle : used ≤ capacity) (he : e.deleted = true → e.size = 0) :
    Accounted capacity count
      { s.setExtent partition extent (s.partitionAt partition) e with used := used } where
  capacity_eq := h.capacity_eq
  used_eq := by
    have hsum := stored_setExtent s partition extent e
    have hold := h.used_eq
    change used.toNat = (s.setExtent partition extent (s.partitionAt partition) e).stored
    omega
  used_le := hle
  tombstone := by
    intro q x e' he'
    change (s.setExtent partition extent (s.partitionAt partition) e).extentAt q x = some e' at he'
    rw [extentAt_setExtent rfl] at he'
    split at he'
    · cases he'
      exact he
    · exact h.tombstone he'
  repairs_le := by
    intro q p' hp'
    change (s.setPartition partition _).partitions[q]? = some p' at hp'
    rw [getElem?_setPartition] at hp'
    split at hp'
    · cases hp'
      exact h.repairs_partitionAt partition
    · exact h.repairs_le hp'

theorem Accounted.remove (h : Accounted capacity count s)
    (hp : s.partitions[partition]? = some p) :
    Accounted capacity count
      { s with
        partitions := s.partitions.erase partition
        used := s.used - .ofNat p.size } := by
  have hsize : p.size ≤ s.used.toNat := by
    rw [h.used_eq]
    exact size_le_stored hp
  have hexact := toNat_sub_ofNat hsize
  exact {
    capacity_eq := h.capacity_eq
    used_eq := by
      have hsum : weigh Partition.size (s.partitions.erase partition) + p.size = s.stored :=
        weigh_erase hp
      have hold := h.used_eq
      change (s.used - .ofNat p.size).toNat = weigh Partition.size (s.partitions.erase partition)
      omega
    used_le := by
      have hle := UInt64.le_iff_toNat_le.mp h.used_le
      apply UInt64.le_iff_toNat_le.mpr
      change (s.used - .ofNat p.size).toNat ≤ capacity.toNat
      omega
    tombstone := by
      intro q x e he
      rw [extentAt_erase] at he
      split at he
      · cases he
      · exact h.tombstone he
    repairs_le := by
      intro q p' hp'
      rw [Std.ExtTreeMap.getElem?_erase] at hp'
      split at hp'
      · cases hp'
      · exact h.repairs_le hp' }

end Store

/-- The bytes of a write fit in a machine word on top of so many others, such as those of a full store. -/
def Operation.Fits (capacity : UInt64) : Operation → Prop
  | .write _ _ _ bytes => capacity.toNat + bytes.size < 2 ^ 64
  | _ => True

instance (capacity : UInt64) : DecidablePred (Operation.Fits capacity)
  | .write _ _ _ bytes => inferInstanceAs (Decidable (capacity.toNat + bytes.size < 2 ^ 64))
  | .createExtent .. | .read .. | .markDelete .. | .watermarks .. | .notifyRepair ..
  | .command .. => .isTrue trivial

namespace Store

variable {s s' : Store} {op : Operation} {partition extent : UInt64} {p : Partition} {e : State}
  {capacity : UInt64} {count : Nat} {offset : Int64} {bytes : ByteArray}

theorem add_growth (hfits : s.used.toNat + bytes.size < 2 ^ 64)
    (hstart : offset.toNatClampNeg ≤ e.content.size) :
    (s.used + .ofNat (growth offset bytes e)).toNat = s.used.toNat + growth offset bytes e := by
  apply toNat_add_ofNat
  rw [growth]
  omega

theorem Accounted.fits (h : Accounted capacity count s) (hfits : op.Fits capacity) :
    op.Fits s.used := by
  have hle := UInt64.le_iff_toNat_le.mp h.used_le
  cases op with
  | write =>
    have hbytes : capacity.toNat + _ < 2 ^ 64 := hfits
    exact Nat.lt_of_le_of_lt (Nat.add_le_add_right hle _) hbytes
  | _ => trivial

theorem Accounted.add_growth (h : Accounted capacity count s)
    (hfits : capacity.toNat + bytes.size < 2 ^ 64)
    (hstart : offset.toNatClampNeg ≤ e.content.size) :
    (s.used + .ofNat (growth offset bytes e)).toNat = s.used.toNat + growth offset bytes e := by
  have hused : (Operation.write 0 0 offset bytes).Fits s.used := h.fits hfits
  exact Store.add_growth hused hstart

theorem Accounted.size_le_used (h : Accounted capacity count s)
    (he : s.extentAt partition extent = some e) : e.size ≤ s.used.toNat := by
  rw [h.used_eq]
  exact content_le_stored he

theorem Accounted.effect (h : Accounted capacity count s) (hfits : op.Fits s.used)
    (heffect : Effect s op s') : Accounted capacity (count + 1) s' := by
  have hlater : Accounted capacity (count + 1) s := h.mono (Nat.le_succ count)
  cases heffect with
  | queried | found | missing => exact hlater
  | created honline he =>
    refine hlater.setExtent ?_ h.used_le (fun hdeleted ↦ by cases hdeleted)
    rw [he]
    rfl
  | @written partition extent offset bytes p e hp he hoffset hstart hroom =>
    obtain rfl := partitionAt_of_some hp
    obtain ⟨-, hextent, hdeleted⟩ := Partition.live_eq_ok_iff.mp he
    rw [← extentAt_eq] at hextent
    -- The word does not overflow, so the guard of the write is about the true sum.
    have hadd := Store.add_growth hfits hstart
    have hsize : (Bytes.overwrite offset.toNatClampNeg bytes e.content).size =
        max e.content.size (offset.toNatClampNeg + bytes.size) := Bytes.size_overwrite hstart
    refine hlater.setExtent ?_ ?_ ?_
    · change (s.used + .ofNat (growth offset bytes e)).toNat + _ = _
      rw [hadd, hextent]
      simp only [Option.elim_some, State.size, hsize, growth]
      omega
    · rw [← h.capacity_eq]
      exact UInt64.not_lt.mp hroom
    · intro hdead
      cases hdeleted.symm.trans hdead
  | @deleted partition extent p e hp he =>
    obtain rfl := partitionAt_of_some hp
    obtain ⟨-, hextent, -⟩ := Partition.live_eq_ok_iff.mp he
    rw [← extentAt_eq] at hextent
    have hsub := toNat_sub_ofNat (h.size_le_used hextent)
    have hle := UInt64.le_iff_toNat_le.mp h.used_le
    refine hlater.setExtent ?_ ?_ (fun _ ↦ rfl)
    · rw [hextent]
      exact hsub
    · apply UInt64.le_iff_toNat_le.mpr
      change (s.used - .ofNat e.size).toNat ≤ capacity.toNat
      omega
  | @notified partition p hp =>
    obtain rfl := partitionAt_of_some hp
    refine h.setPartition rfl ?_ (Nat.le_succ count)
    have hrepairs := h.repairs_le hp
    change ((s.partitionAt partition).repairRequests + 1).toNat ≤ count + 1
    rw [UInt64.toNat_add]
    exact Nat.le_trans (Nat.mod_le _ _) (Nat.succ_le_succ hrepairs)
  | broughtOnline =>
    exact h.setPartition rfl (Nat.le_succ_of_le (h.repairs_partitionAt _)) (Nat.le_succ count)
  | @takenOffline partition p hp =>
    obtain rfl := partitionAt_of_some hp
    exact h.setPartition rfl (Nat.le_succ_of_le (h.repairs_partitionAt _)) (Nat.le_succ count)
  | removed hp => exact hlater.remove hp

theorem Accounted.engine (h : Accounted capacity count s) (hfits : op.Fits s.used) :
    Accounted capacity (count + 1) (engine op s).2 := by
  rcases engine_cases op s with ⟨fault, hfault⟩ | ⟨a, s', hok, heffect⟩
  · rw [hfault]
    exact h.mono (Nat.le_succ count)
  · rw [hok]
    exact h.effect hfits heffect

theorem Accounted.run {ops : List Operation} (h : Accounted capacity count s)
    (hfits : ∀ op ∈ ops, op.Fits capacity) : Accounted capacity (count + ops.length) (run ops s) := by
  induction ops generalizing s count with
  | nil => exact h
  | cons op ops ih =>
    have hnext := ih (h.engine (h.fits (hfits op (by simp)))) fun op' hop' ↦ hfits op' (by simp [hop'])
    rw [List.length_cons, Nat.add_comm ops.length, ← Nat.add_assoc]
    exact hnext

theorem accounted_run {ops : List Operation} (hfits : ∀ op ∈ ops, op.Fits capacity) :
    Accounted capacity ops.length (Store.run ops (empty capacity)) := by
  simpa using (accounted_empty capacity).run hfits

/-! ## What the books are good for -/

/-- While the books are in order no machine word overflows.  Only the count of requests for repair would,
after as many operations as a word can count. -/
theorem Accounted.exact (h : Accounted capacity count s) (hfits : op.Fits capacity)
    (hcount : ∀ partition, op = .notifyRepair partition → count + 1 < 2 ^ 64) : s.Exact op := by
  cases op with
  | write partition extent offset bytes =>
    intro e he hstart
    have hused := h.size_le_used (live_iff.mp he).2.1
    have hle := UInt64.le_iff_toNat_le.mp h.used_le
    have hbytes : capacity.toNat + bytes.size < 2 ^ 64 := hfits
    rw [State.size] at hused
    exact ⟨by omega, h.add_growth hfits hstart⟩
  | read partition extent offset size =>
    have hoffset := offset.toNatClampNeg_lt
    have hsize := size.toNat_lt
    change offset.toNatClampNeg + size.toNat < 2 ^ 64
    omega
  | markDelete partition extent =>
    intro e he
    exact toNat_sub_ofNat (h.size_le_used (live_iff.mp he).2.1)
  | notifyRepair partition =>
    intro p hp
    have hrepairs := h.repairs_le hp
    have hlimit := hcount partition rfl
    rw [UInt64.toNat_add]
    exact Nat.mod_eq_of_lt (Nat.lt_of_le_of_lt (Nat.succ_le_succ hrepairs) hlimit)
  | command opcode partition =>
    cases opcode with
    | deleteDataPartition =>
      intro p hp
      apply toNat_sub_ofNat
      rw [h.used_eq]
      exact size_le_stored hp
    | _ => trivial
  | _ => trivial

/-- The outcome of a write that starts in a live extent or at its end. -/
theorem engine_write_of_live (he : s.Live partition extent e) (hoffset : 0 ≤ offset)
    (hstart : offset.toNatClampNeg ≤ e.content.size) :
    (engine (.write partition extent offset bytes) s).1 =
      if s.capacity < s.used + .ofNat (growth offset bytes e) then .error .noSpace else .ok .done := by
  obtain ⟨p, hp, hlive⟩ := he.exists_live
  by_cases hroom : s.capacity < s.used + .ofNat (growth offset bytes e)
  · rw [if_pos hroom]
    rw [growth] at hroom
    simp only [engine, perform, write, if_neg (Int64.not_lt.mpr hoffset), hp, hlive,
      if_neg (Nat.not_lt.mpr hstart), if_pos hroom, Except.map]
  · rw [if_neg hroom]
    rw [growth] at hroom
    simp only [engine, perform, write, if_neg (Int64.not_lt.mpr hoffset), hp, hlive,
      if_neg (Nat.not_lt.mpr hstart), if_neg hroom, Except.map]

theorem Accounted.lt_add_growth_iff (h : Accounted capacity count s)
    (hfits : capacity.toNat + bytes.size < 2 ^ 64)
    (hstart : offset.toNatClampNeg ≤ e.content.size) :
    s.capacity < s.used + .ofNat (growth offset bytes e) ↔
      capacity.toNat < s.stored + growth offset bytes e := by
  rw [UInt64.lt_iff_toNat_lt, h.capacity_eq, h.add_growth hfits hstart, h.used_eq]

/-- After every run that begins with an empty store, failures included, the number of used bytes is the
sum over all extents, deleted extents hold nothing, and the capacity is kept.  On the way every sum and
difference of machine words was exact.  A write to a live extent, at its end or before, is then refused
for want of space just when the stored bytes and those that it adds are more than the capacity; so freed
space can be used again, and a write inside an extent always finds room. -/
theorem space_accounted {capacity : UInt64} {ops : List Operation}
    (hfits : ∀ op ∈ ops, op.Fits capacity) :
    let s := Store.run ops (empty capacity)
    s.used.toNat = s.stored ∧
      (∀ partition extent e, s.extentAt partition extent = some e → e.deleted = true →
        e.content.size = 0) ∧
      s.used ≤ capacity ∧
      (∀ before op after, ops = before ++ op :: after →
        (∀ partition, op = .notifyRepair partition → before.length + 1 < 2 ^ 64) →
        (Store.run before (empty capacity)).Exact op) ∧
      ∀ partition extent offset bytes e, s.Live partition extent e → 0 ≤ offset →
        offset.toNatClampNeg ≤ e.content.size → capacity.toNat + bytes.size < 2 ^ 64 →
        ((engine (.write partition extent offset bytes) s).1 = .error .noSpace ↔
          capacity.toNat < s.stored + growth offset bytes e) ∧
        (offset.toNatClampNeg + bytes.size ≤ e.content.size →
          (engine (.write partition extent offset bytes) s).1 = .ok .done) := by
  intro s
  have hs : Accounted capacity ops.length s := accounted_run hfits
  refine ⟨hs.used_eq, fun _ _ _ ↦ hs.tombstone, hs.used_le, ?_, ?_⟩
  · rintro before op after rfl hcount
    have hbefore : Accounted capacity before.length (Store.run before (empty capacity)) :=
      accounted_run fun op' hop' ↦ hfits op' (by simp [hop'])
    exact hbefore.exact (hfits op (by simp)) hcount
  · intro partition extent offset bytes e he hoffset hstart hbytes
    have hroom := hs.lt_add_growth_iff hbytes hstart
    rw [engine_write_of_live he hoffset hstart]
    refine ⟨?_, fun hinside ↦ ?_⟩
    · rw [← hroom]
      split <;> simp_all
    · have hgrowth : growth offset bytes e = 0 := Nat.sub_eq_zero_of_le hinside
      have hle := UInt64.le_iff_toNat_le.mp hs.used_le
      have hused := hs.used_eq
      rw [if_neg]
      rw [hroom, hgrowth]
      omega

/-- A store of eight bytes is filled and refuses a ninth.  After the extent is deleted another one can
take eight bytes, and no more. -/
theorem space_accounted_refill :
    let ops : List Operation := [.createExtent 1 100, .write 1 100 0 (Bytes.ofText "12345678"),
      .write 1 100 8 (Bytes.ofText "9"), .markDelete 1 100, .createExtent 2 7]
    let s := Store.run ops (empty 8)
    s.used.toNat = s.stored ∧ s.used ≤ 8 ∧
      (engine (.write 2 7 0 (Bytes.ofText "abcdefghi")) s).1 = .error .noSpace ∧
      (engine (.write 2 7 0 (Bytes.ofText "abcdefgh")) s).1 ≠ .error .noSpace := by
  intro ops s
  have hfits : ∀ op ∈ ops, op.Fits 8 := by decide
  obtain ⟨hused, -, hle, -, hwrite⟩ := space_accounted hfits
  have hlive : s.Live 2 7 .blank := live_iff.mpr (by decide +kernel)
  have hstored : s.stored = 0 := by decide +kernel
  have hstart : Int64.toNatClampNeg 0 ≤ State.blank.content.size := by decide
  have hlong := (hwrite 2 7 0 (Bytes.ofText "abcdefghi") .blank hlive (by decide) hstart (by decide)).1
  have hshort := (hwrite 2 7 0 (Bytes.ofText "abcdefgh") .blank hlive (by decide) hstart (by decide)).1
  refine ⟨hused, hle, hlong.mpr ?_, mt hshort.mp ?_⟩
  · rw [hstored]
    decide
  · rw [hstored]
    decide

end Store

end ReplicaChain.Extent
