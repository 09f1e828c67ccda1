import ReplicaChain.Proofs.Extent.Accounting
import ReplicaChain.Proofs.Extent.Repetition

/-!
# Creations and writes in any order

A creation or a write gives one extent a new state.  Which one depends on the state that the extent had
and on whether its partition is online, and neither changes with what happens to another extent.  A
partition that is created on the way is online.  All writes draw on the same space, but they only add to
the used bytes: a write that finds room after another operation finds it before, and together they need
the same room in either order.  That takes machine words that do not overflow.  If none does in one order,
then none does in any other; and none does as long as memory can hold the bytes.
-/

namespace ReplicaChain.Extent

theorem Partition.withExtent_comm {p : Partition} {x y : UInt64} {e e' : State} (hne : y ≠ x) :
    (p.withExtent x e).withExtent y e' = (p.withExtent y e').withExtent x e := by
  simp only [withExtent, insert_comm hne.symm]

namespace Operation

def size : Operation → Nat
  | write _ _ _ bytes => bytes.size
  | _ => 0

/-- Whether an operation has to find room for what it adds. -/
def NeedsRoom : Operation → Prop
  | write .. => True
  | _ => False

/-- What a creation or a write makes of the state of its extent, and how many bytes it adds. -/
inductive Changes : Operation → Option State → State → Nat → Prop where
  | found {partition extent : UInt64} {e : State} (he : e.deleted = false) :
    Changes (.createExtent partition extent) (some e) e 0
  | created {partition extent : UInt64} :
    Changes (.createExtent partition extent) none .blank 0
  | written {partition extent : UInt64} {offset : Int64} {bytes : ByteArray} {e : State}
      (he : e.deleted = false) (hoffset : ¬ offset < 0)
      (hstart : offset.toNatClampNeg ≤ e.content.size) :
    Changes (.write partition extent offset bytes) (some e)
      { e with content := Bytes.overwrite offset.toNatClampNeg bytes e.content }
      (Store.growth offset bytes e)

variable {op : Operation} {x : Option State} {e : State} {n : Nat}

theorem Changes.le_size (h : op.Changes x e n) : n ≤ op.size := by
  cases h with
  | found | created => exact Nat.le_refl 0
  | written he hoffset hstart =>
    simp only [Store.growth, size]
    omega

/-- The end of the range that an operation writes to is a machine word. -/
def EndFits : Operation → Prop
  | write _ _ offset bytes => offset.toNatClampNeg + bytes.size < 2 ^ 64
  | _ => True

theorem Changes.eq_zero (h : op.Changes x e n) (hop : ¬ op.NeedsRoom) : n = 0 := by
  cases h with
  | found | created => rfl
  | written => exact absurd trivial hop

theorem IsRepeatable.exists_target (h : op.IsRepeatable) :
    ∃ partition extent, op.target = some (partition, extent) := by
  cases op with
  | createExtent | write => exact ⟨_, _, rfl⟩
  | _ => exact h.elim

end Operation

namespace Store

variable {s s' s'' t : Store} {op a b : Operation} {ops ops' : List Operation}
  {partition extent q y : UInt64} {p : Partition} {e e' : State} {n m : Nat} {answer answer' : Answer}

/-! ## One step -/

/-- The store with a new state of one extent and with more used bytes. -/
def place (partition extent : UInt64) (e : State) (n : Nat) (s : Store) : Store :=
  { s.setPartition partition ((s.partitionAt partition).withExtent extent e) with
    used := s.used + .ofNat n }

theorem partitionAt_setPartition :
    (s.setPartition partition p).partitionAt q =
      if q = partition then p else s.partitionAt q := by
  rw [partitionAt, getElem?_setPartition]
  split <;> rfl

theorem partitionAt_place :
    (s.place partition extent e n).partitionAt q =
      if q = partition then (s.partitionAt partition).withExtent extent e else s.partitionAt q :=
  partitionAt_setPartition (s := s)

theorem offline_place :
    ((s.place partition extent e n).partitionAt q).offline = (s.partitionAt q).offline := by
  rw [partitionAt_place]
  split
  · rename_i hq
    rw [hq]
    rfl
  · rfl

theorem extentAt_place (hne : (q, y) ≠ (partition, extent)) :
    (s.place partition extent e n).extentAt q y = s.extentAt q y := by
  change (s.setExtent partition extent (s.partitionAt partition) e).extentAt q y = _
  rw [extentAt_setExtent rfl, if_neg]
  rintro ⟨rfl, rfl⟩
  exact hne rfl

/-- An extent that keeps its state leaves the store as it is. -/
theorem place_self (he : s.extentAt partition extent = some e) : s.place partition extent e 0 = s := by
  obtain ⟨p, hp, hextent⟩ := Option.bind_eq_some_iff.mp he
  have hused : s.used + .ofNat 0 = s.used := by simp
  rw [place, partitionAt_of_some hp, Partition.withExtent, insert_self hextent, setPartition,
    insert_self hp, hused]

theorem place_comm (hne : (q, y) ≠ (partition, extent)) :
    (s.place partition extent e n).place q y e' m = (s.place q y e' m).place partition extent e n := by
  have hused : s.used + .ofNat n + .ofNat m = s.used + .ofNat m + .ofNat n := by
    rw [UInt64.add_assoc, UInt64.add_comm (.ofNat n), ← UInt64.add_assoc]
  simp only [place, setPartition, mk.injEq, and_true]
  refine ⟨?_, hused⟩
  change (s.partitions.insert partition _).insert q
      (((s.place partition extent e n).partitionAt q).withExtent y e') =
    (s.partitions.insert q _).insert partition
      (((s.place q y e' m).partitionAt partition).withExtent extent e)
  rw [partitionAt_place, partitionAt_place]
  by_cases hq : q = partition
  · subst hq
    have hy : y ≠ extent := fun h ↦ hne (by rw [h])
    rw [if_pos rfl, if_pos rfl, insert_insert, insert_insert, Partition.withExtent_comm hy]
  · rw [if_neg hq, if_neg (Ne.symm hq), insert_comm (Ne.symm hq)]

/-- A creation or a write succeeds just when its partition is online, it can be made on the state of its
extent, and there is room; then this extent gets its new state. -/
theorem perform_eq_ok_iff (hop : op.IsRepeatable) (htarget : op.target = some (partition, extent)) :
    s.perform op = .ok (answer, s') ↔
      answer = .done ∧ (s.partitionAt partition).offline = false ∧
        ∃ e n, op.Changes (s.extentAt partition extent) e n ∧
          (op.NeedsRoom → s.used + .ofNat n ≤ s.capacity) ∧ s' = s.place partition extent e n := by
  constructor
  · intro h
    refine ⟨answer_of_isRepeatable hop h, ?_⟩
    cases effect_of_perform h with
    | queried hquery => cases op <;> first | exact hop.elim | exact hquery.elim
    | found he =>
      cases htarget
      obtain ⟨honline, hextent, hkept⟩ := live_iff.mp he
      refine ⟨honline, _, 0, ?_, False.elim, (place_self hextent).symm⟩
      rw [hextent]
      exact .found hkept
    | created honline he =>
      cases htarget
      refine ⟨honline, .blank, 0, ?_, False.elim, ?_⟩
      · rw [he]
        exact .created
      · have hused : s.used + .ofNat 0 = s.used := by simp
        rw [place, hused]
        rfl
    | written hp he hoffset hstart hroom =>
      cases htarget
      obtain ⟨honline, hextent, hkept⟩ := Partition.live_eq_ok_iff.mp he
      obtain rfl := partitionAt_of_some hp
      rw [← extentAt_eq] at hextent
      refine ⟨honline, _, _, ?_, fun _ ↦ UInt64.not_lt.mp hroom, rfl⟩
      rw [hextent]
      exact .written hkept hoffset hstart
    | deleted | notified | broughtOnline | takenOffline | removed | missing => exact hop.elim
  · rintro ⟨rfl, honline, e, n, hchanges, hroom, rfl⟩
    generalize hx : s.extentAt partition extent = x at hchanges
    cases hchanges with
    | found hkept =>
      cases htarget
      have hlive := live_iff.mpr ⟨honline, hx, hkept⟩
      rw [place_self hx, perform, createExtent_of_live hlive]
      rfl
    | created =>
      cases htarget
      rw [extentAt_eq] at hx
      have hcreate : s.createExtent partition extent =
          .ok (s.setExtent partition extent (s.partitionAt partition) .blank) := by
        have hp : s.partitions[partition]?.getD .blank = s.partitionAt partition := rfl
        simp only [createExtent, hp, honline, hx, Bool.false_eq_true, if_false]
      have hused : s.used + .ofNat 0 = s.used := by simp
      rw [perform, hcreate, place, hused]
      rfl
    | @written _ _ offset bytes e hkept hoffset hstart =>
      cases htarget
      obtain ⟨p, hp, hlive⟩ := (live_iff.mpr ⟨honline, hx, hkept⟩).exists_live
      have hroom' := UInt64.not_lt.mpr (hroom trivial)
      rw [growth] at hroom'
      simp only [perform, write, if_neg hoffset, hp, hlive, if_neg (Nat.not_lt.mpr hstart),
        if_neg hroom', place, partitionAt_of_some hp]
      rfl

/-- No machine word overflows in an operation that can be made, just when the end of its range and the
bytes that will be used are machine words. -/
theorem exact_iff (hop : op.IsRepeatable) (htarget : op.target = some (partition, extent))
    (honline : (s.partitionAt partition).offline = false)
    (hchanges : op.Changes (s.extentAt partition extent) e n) :
    s.Exact op ↔ op.EndFits ∧ (s.used + .ofNat n).toNat = s.used.toNat + n := by
  generalize hx : s.extentAt partition extent = x at hchanges
  cases hchanges with
  | found | created =>
    have hused : s.used + .ofNat 0 = s.used := by simp
    rw [hused]
    exact iff_of_true trivial ⟨trivial, rfl⟩
  | @written _ _ offset bytes e hkept hoffset hstart =>
    cases htarget
    have hlive : s.Live partition extent e := live_iff.mpr ⟨honline, hx, hkept⟩
    constructor
    · intro hexact
      exact hexact e hlive hstart
    · intro hexact e' hlive' _
      obtain ⟨-, hextent, -⟩ := live_iff.mp hlive'
      rw [hx] at hextent
      obtain rfl := Option.some.inj hextent
      exact hexact

/-- A small operation on a store that is not full to the brim overflows nothing. -/
theorem exact_of_fits (hop : op.IsRepeatable) (hfits : s.used.toNat + op.size < 2 ^ 63) :
    s.Exact op := by
  cases op with
  | createExtent => trivial
  | write partition extent offset bytes =>
    intro e _ hstart
    have hoffset := offset.toNatClampNeg_lt
    change s.used.toNat + bytes.size < 2 ^ 63 at hfits
    refine ⟨by omega, toNat_add_ofNat ?_⟩
    rw [growth]
    omega
  | _ => exact hop.elim

/-! ## Two steps -/

/-- Two successes on different extents are also possible the other way round, and lead to the same store.
If no machine word overflows in the one order, none does in the other. -/
theorem perform_swap (ha : a.IsRepeatable) (hb : b.IsRepeatable) (hne : a.target ≠ b.target)
    (hfirst : s.perform a = .ok (answer, s')) (hexact : s.Exact a)
    (hsecond : s'.perform b = .ok (answer', t)) (hexact' : s'.Exact b) :
    ∃ r, s.perform b = .ok (answer', r) ∧ s.Exact b ∧ r.perform a = .ok (answer, t) ∧ r.Exact a := by
  obtain ⟨partition, extent, htarget⟩ := ha.exists_target
  obtain ⟨q, y, htarget'⟩ := hb.exists_target
  have hother : (q, y) ≠ (partition, extent) := by
    rintro h
    exact hne (by rw [htarget, htarget', h])
  obtain ⟨rfl, honline, e, n, hchanges, hroom, rfl⟩ := (perform_eq_ok_iff ha htarget).mp hfirst
  obtain ⟨rfl, honline', e', m, hchanges', hroom', rfl⟩ :=
    (perform_eq_ok_iff hb htarget').mp hsecond
  obtain ⟨hend, hn⟩ := (exact_iff ha htarget honline hchanges).mp hexact
  obtain ⟨hend', hm⟩ := (exact_iff hb htarget' honline' hchanges').mp hexact'
  rw [offline_place] at honline'
  rw [extentAt_place hother] at hchanges'
  change b.NeedsRoom → s.used + .ofNat n + .ofNat m ≤ s.capacity at hroom'
  change (s.used + .ofNat n + .ofNat m).toNat = (s.used + .ofNat n).toNat + m at hm
  have hswap : s.used + .ofNat m + .ofNat n = s.used + .ofNat n + .ofNat m := by
    rw [UInt64.add_assoc, UInt64.add_comm (.ofNat m), ← UInt64.add_assoc]
  -- The sum of all three is a machine word, so each part of it is.
  have hall := (s.used + .ofNat n + .ofNat m).toNat_lt
  have hm' : (s.used + .ofNat m).toNat = s.used.toNat + m := toNat_add_ofNat (by omega)
  have hn' : (s.used + .ofNat m + .ofNat n).toNat = (s.used + .ofNat m).toNat + n := by
    rw [hswap, hm, hn, hm']
    omega
  have hbefore : b.NeedsRoom → s.used + .ofNat m ≤ s.capacity := by
    intro hneeds
    have hboth := UInt64.le_iff_toNat_le.mp (hroom' hneeds)
    rw [UInt64.le_iff_toNat_le]
    omega
  have hafter : a.NeedsRoom → s.used + .ofNat m + .ofNat n ≤ s.capacity := by
    intro hneeds
    by_cases hneeds' : b.NeedsRoom
    · rw [hswap]
      exact hroom' hneeds'
    · rw [hchanges'.eq_zero hneeds']
      simpa using hroom hneeds
  have honline'' : ((s.place q y e' m).partitionAt partition).offline = false := by
    rw [offline_place]
    exact honline
  have hchanges'' : a.Changes ((s.place q y e' m).extentAt partition extent) e n := by
    rw [extentAt_place hother.symm]
    exact hchanges
  exact ⟨s.place q y e' m,
    (perform_eq_ok_iff hb htarget').mpr ⟨rfl, honline', e', m, hchanges', hbefore, rfl⟩,
    (exact_iff hb htarget' honline' hchanges').mpr ⟨hend', hm'⟩,
    (perform_eq_ok_iff ha htarget).mpr
      ⟨rfl, honline'', e, n, hchanges'', hafter, place_comm hother⟩,
    (exact_iff ha htarget honline'' hchanges'').mpr ⟨hend, hn'⟩⟩

/-! ## Many steps -/

/-- The store after operations each of which has to succeed. -/
def carryOut : List Operation → Store → Except StorageFault Store
  | [], s => .ok s
  | op :: ops, s =>
    match s.perform op with
    | .error fault => .error fault
    | .ok (_, s) => carryOut ops s

/-- No machine word overflows in operations that are made one after another. -/
def ExactAlong : List Operation → Store → Prop
  | [], _ => True
  | op :: ops, s => s.Exact op ∧ ExactAlong ops (engine op s).2

/-- Operations succeed one after another, and no machine word overflows on the way. -/
def Carries (s : Store) (ops : List Operation) (t : Store) : Prop :=
  s.carryOut ops = .ok t ∧ s.ExactAlong ops

theorem carryOut_cons_eq_ok_iff :
    s.carryOut (op :: ops) = .ok t ↔
      ∃ answer s', s.perform op = .ok (answer, s') ∧ s'.carryOut ops = .ok t := by
  rw [carryOut]
  rcases s.perform op with fault | ⟨answer, s'⟩ <;> simp

theorem store_of_perform (hop : s.perform op = .ok (answer, s')) : (engine op s).2 = s' := by
  rw [engine, hop]

theorem carries_cons_iff :
    s.Carries (op :: ops) t ↔
      ∃ answer s', s.perform op = .ok (answer, s') ∧ s.Exact op ∧ s'.Carries ops t := by
  constructor
  · rintro ⟨hdone, hexact, hrest⟩
    obtain ⟨answer, s', hop, hdone⟩ := carryOut_cons_eq_ok_iff.mp hdone
    rw [store_of_perform hop] at hrest
    exact ⟨answer, s', hop, hexact, hdone, hrest⟩
  · rintro ⟨answer, s', hop, hexact, hdone, hrest⟩
    rw [← store_of_perform hop] at hrest
    exact ⟨carryOut_cons_eq_ok_iff.mpr ⟨answer, s', hop, hdone⟩, hexact, hrest⟩

/-- Creations and writes on different extents. -/
structure Independent (ops : List Operation) : Prop where
  repeatable : ∀ op ∈ ops, op.IsRepeatable
  distinct : ops.Pairwise fun a b ↦ a.target ≠ b.target

theorem Independent.perm (h : Independent ops) (hperm : ops.Perm ops') : Independent ops' where
  repeatable := fun op hop ↦ h.repeatable op (hperm.mem_iff.mpr hop)
  distinct := hperm.pairwise h.distinct Ne.symm

theorem Independent.tail (h : Independent (op :: ops)) : Independent ops where
  repeatable := fun op' hop' ↦ h.repeatable op' (List.mem_cons_of_mem op hop')
  distinct := h.distinct.of_cons

theorem Independent.swap (h : Independent (a :: b :: ops)) (hs : s.Carries (a :: b :: ops) t) :
    s.Carries (b :: a :: ops) t := by
  obtain ⟨answer, s', hfirst, hexact, hrest⟩ := carries_cons_iff.mp hs
  obtain ⟨answer', s'', hsecond, hexact', hrest⟩ := carries_cons_iff.mp hrest
  have hne : a.target ≠ b.target := List.rel_of_pairwise_cons h.distinct List.mem_cons_self
  obtain ⟨r, hb, hexactb, ha, hexacta⟩ := perform_swap (h.repeatable a (by simp))
    (h.repeatable b (by simp)) hne hfirst hexact hsecond hexact'
  have hlast := carries_cons_iff.mpr ⟨answer, s'', ha, hexacta, hrest⟩
  exact carries_cons_iff.mpr ⟨answer', r, hb, hexactb, hlast⟩

theorem Independent.carries_of_perm (h : Independent ops) (hperm : ops.Perm ops')
    (hs : s.Carries ops t) : s.Carries ops' t := by
  induction hperm generalizing s with
  | nil => exact hs
  | cons op _ ih =>
    obtain ⟨answer, s', hop, hexact, hrest⟩ := carries_cons_iff.mp hs
    exact carries_cons_iff.mpr ⟨answer, s', hop, hexact, ih h.tail hrest⟩
  | swap => exact h.swap hs
  | trans hleft _ ihleft ihright => exact ihright (h.perm hleft) (ihleft h hs)

/-- Success does without overflow when memory can hold the bytes beside those that are used. -/
theorem carries_of_fits (hops : ∀ op ∈ ops, op.IsRepeatable)
    (hfits : s.used.toNat + (ops.map Operation.size).sum < 2 ^ 63) (hs : s.carryOut ops = .ok t) :
    s.Carries ops t := by
  induction ops generalizing s with
  | nil => exact ⟨hs, trivial⟩
  | cons op ops ih =>
    obtain ⟨answer, s', hperform, hrest⟩ := carryOut_cons_eq_ok_iff.mp hs
    have hop := hops op List.mem_cons_self
    obtain ⟨partition, extent, htarget⟩ := hop.exists_target
    obtain ⟨-, -, e, n, hchanges, -, rfl⟩ := (perform_eq_ok_iff hop htarget).mp hperform
    have hn := hchanges.le_size
    rw [List.map_cons, List.sum_cons] at hfits
    have hused : (s.place partition extent e n).used.toNat = s.used.toNat + n :=
      toNat_add_ofNat (by omega)
    refine carries_cons_iff.mpr ⟨answer, _, hperform, exact_of_fits hop (by omega), ih ?_ ?_ hrest⟩
    · exact fun op' hop' ↦ hops op' (List.mem_cons_of_mem op hop')
    · rw [hused]
      omega

/-- Let creations and writes be about different extents, in partitions that may be the same and need not
exist.  Whatever the store and however little space is left: if they all succeed in one order they all
succeed in every other, and the store that results is the same.  No machine word overflows in any order if
none does in one, and none does if memory can hold the bytes.  For two operations the orders are two. -/
theorem carryOut_in_any_order (hops : ∀ op ∈ ops, op.IsRepeatable)
    (hdistinct : ops.Pairwise fun a b ↦ a.target ≠ b.target) (hperm : ops.Perm ops') :
    (s.carryOut ops = .ok t ∧ s.ExactAlong ops ↔ s.carryOut ops' = .ok t ∧ s.ExactAlong ops') ∧
      (s.used.toNat + (ops.map Operation.size).sum < 2 ^ 63 →
        (s.carryOut ops = .ok t ↔ s.carryOut ops' = .ok t)) := by
  have h : Independent ops := ⟨hops, hdistinct⟩
  have hcarries : s.Carries ops t ↔ s.Carries ops' t :=
    ⟨h.carries_of_perm hperm, (h.perm hperm).carries_of_perm hperm.symm⟩
  refine ⟨hcarries, fun hfits ↦ ⟨fun hs ↦ ?_, fun hs ↦ ?_⟩⟩
  · exact (hcarries.mp (carries_of_fits hops hfits hs)).1
  · rw [(hperm.map Operation.size).sum_nat] at hfits
    exact (hcarries.mpr (carries_of_fits (h.perm hperm).repeatable hfits hs)).1

/-- Two extents are created in a partition that does not exist, and two others take up all the space.
The reverse order gives the same store. -/
theorem carryOut_in_any_order_filled :
    let s := Store.run [.createExtent 1 1, .createExtent 2 9] (empty 8)
    let ops : List Operation := [.createExtent 3 1, .write 1 1 0 (Bytes.ofText "1234"),
      .createExtent 3 70, .write 2 9 0 (Bytes.ofText "5678")]
    s.carryOut ops = .ok (Store.run ops s) ∧ s.carryOut ops.reverse = .ok (Store.run ops s) ∧
      s.ExactAlong ops.reverse ∧ (Store.run ops s).used = 8 := by
  intro s ops
  have hs : s.carryOut ops = .ok (Store.run ops s) := by decide +kernel
  have hops : ∀ op ∈ ops, op.IsRepeatable := by simp [ops, Operation.IsRepeatable]
  have hexact : s.ExactAlong ops := (carries_of_fits hops (by decide +kernel) hs).2
  obtain ⟨hreverse, -⟩ := carryOut_in_any_order hops (by decide) ops.reverse_perm.symm
  exact ⟨hs, (hreverse.mp ⟨hs, hexact⟩).1, (hreverse.mp ⟨hs, hexact⟩).2, by decide +kernel⟩

end Store

end ReplicaChain.Extent
