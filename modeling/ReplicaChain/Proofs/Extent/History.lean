import Mathlib.Data.List.Induction
import ReplicaChain.Proofs.Extent.Effect

/-!
# Extents as histories of writes

What an extent holds is what was written to it since it was created: it ends where the furthest write
ends, and every byte of it comes from the last write that covers the byte.  Failed operations leave no
mark, and operations on other extents do not show.

An extent can be created more than once in a run, since its number is free again when its partition is
removed.  A run is therefore split at the operation that created the extent last, and the writes are
those among the successful operations of the second part.
-/

namespace ReplicaChain

/-- An overwritten byte string has the new bytes in their place and the old ones elsewhere. -/
theorem Bytes.getElem?_overwrite {offset : Nat} {data b : ByteArray} (h : offset ≤ b.size) (i : Nat) :
    (overwrite offset data b).data[i]? =
      if offset ≤ i ∧ i < offset + data.size then data.data[i - offset]? else b.data[i]? := by
  simp only [overwrite, take, drop, ByteArray.data_append, ByteArray.data_extract,
    Array.getElem?_append, Array.getElem?_extract, Array.size_append, Array.size_extract,
    ByteArray.size_data, Nat.min_eq_left h, Nat.min_self, Nat.sub_zero, Nat.zero_add]
  -- The byte stands before the new bytes, in them or after them.
  rcases Nat.lt_or_ge i offset with hbefore | hstart
  · have hout : ¬ (offset ≤ i ∧ i < offset + data.size) := by omega
    rw [if_pos (Nat.lt_add_right _ hbefore), if_pos hbefore, if_pos hbefore, if_neg hout]
  · rcases Nat.lt_or_ge i (offset + data.size) with hin | hafter
    · rw [if_pos hin, if_neg (Nat.not_lt.mpr hstart), if_pos ⟨hstart, hin⟩]
    · have hout : ¬ (offset ≤ i ∧ i < offset + data.size) := by omega
      rw [if_neg (Nat.not_lt.mpr hafter), if_neg hout, Nat.add_sub_cancel' hafter]
      split
      · rfl
      · rw [Array.getElem?_eq_none]
        rw [ByteArray.size_data]
        omega

namespace Extent

/-! ## Lists of writes -/

structure Written where
  start : Nat
  bytes : ByteArray
  deriving DecidableEq

def Written.stop (w : Written) : Nat :=
  w.start + w.bytes.size

def Written.Covers (i : Nat) (w : Written) : Prop :=
  w.start ≤ i ∧ i < w.stop

instance (i : Nat) : DecidablePred (Written.Covers i) := fun w ↦
  inferInstanceAs (Decidable (w.start ≤ i ∧ i < w.stop))

def furthest (writes : List Written) : Nat :=
  (writes.map Written.stop).foldl max 0

def lastCovering (i : Nat) (writes : List Written) : Option Written :=
  writes.reverse.find? (·.Covers i)

/-- A content is what a list of writes leaves: it ends where the furthest of them ends, and each of its
bytes is from the last write that covers it. -/
structure LeftBy (writes : List Written) (content : ByteArray) : Prop where
  size_eq : content.size = furthest writes
  byte_eq : ∀ i < content.size, ∃ w, lastCovering i writes = some w ∧ w.Covers i ∧
    content.data[i]? = w.bytes.data[i - w.start]?

variable {writes : List Written} {w : Written} {content : ByteArray}

theorem furthest_concat (writes : List Written) (w : Written) :
    furthest (writes ++ [w]) = max (furthest writes) w.stop := by
  rw [furthest, List.map_append, List.foldl_append]
  rfl

theorem lastCovering_concat (i : Nat) (writes : List Written) (w : Written) :
    lastCovering i (writes ++ [w]) = if w.Covers i then some w else lastCovering i writes := by
  rw [lastCovering, List.reverse_append, List.reverse_singleton, List.singleton_append,
    List.find?_cons]
  split <;> simp_all [lastCovering]

theorem leftBy_nil : LeftBy [] .empty where
  size_eq := rfl
  byte_eq i hi := by simp at hi

/-- A write that starts in the content or at its end adds itself to the history. -/
theorem LeftBy.write (h : LeftBy writes content) (hstart : w.start ≤ content.size) :
    LeftBy (writes ++ [w]) (Bytes.overwrite w.start w.bytes content) where
  size_eq := by rw [Bytes.size_overwrite hstart, h.size_eq, furthest_concat, Written.stop]
  byte_eq i hi := by
    rw [Bytes.size_overwrite hstart] at hi
    rw [lastCovering_concat, Bytes.getElem?_overwrite hstart]
    by_cases hcovers : w.Covers i
    · exact ⟨w, if_pos hcovers, hcovers, if_pos hcovers⟩
    · have hout : ¬ (w.start ≤ i ∧ i < w.start + w.bytes.size) := hcovers
      have hold : i < content.size := by omega
      rw [if_neg hcovers, if_neg hout]
      exact h.byte_eq i hold

/-! ## What an operation says about an extent -/

namespace Operation

def writtenTo (partition extent : UInt64) : Operation → Option Written
  | write p x offset bytes =>
    if p = partition ∧ x = extent then some ⟨offset.toNatClampNeg, bytes⟩ else none
  | _ => none

def target : Operation → Option (UInt64 × UInt64)
  | createExtent p x => some (p, x)
  | write p x _ _ => some (p, x)
  | read p x _ _ => some (p, x)
  | markDelete p x => some (p, x)
  | _ => none

variable {op : Operation} {partition extent : UInt64}

theorem target_of_writtenTo (h : op.writtenTo partition extent = some w) :
    op.target = some (partition, extent) := by
  cases op with
  | write p x =>
    simp only [writtenTo] at h
    split at h
    · rename_i hsame
      rw [target, hsame.1, hsame.2]
    · cases h
  | _ => cases h

theorem IsQuery.writtenTo_eq_none (h : op.IsQuery) : op.writtenTo partition extent = none := by
  cases op with
  | write => exact h.elim
  | _ => rfl

end Operation

/-! ## Changes of one extent -/

/-- What an operation does to the state of one extent, and what it writes there. -/
inductive Change (partition extent : UInt64) (op : Operation) :
    List Written → Option State → Option State → Prop where
  | kept (x : Option State) : Change partition extent op [] x x
  | created (hop : op = .createExtent partition extent) :
    Change partition extent op [] none (some .blank)
  | written {w : Written} {e : State} (hop : op.writtenTo partition extent = some w)
      (hdeleted : e.deleted = false) (hstart : w.start ≤ e.content.size) :
    Change partition extent op [w] (some e)
      (some { e with content := Bytes.overwrite w.start w.bytes e.content })
  | deleted {e : State} (hop : op = .markDelete partition extent) :
    Change partition extent op [] (some e) (some .tombstone)
  | removed {x : Option State} (hop : op = .command .deleteDataPartition partition) :
    Change partition extent op [] x none

namespace Store

variable {s s' : Store} {op : Operation} {ops before after : List Operation}
  {partition extent : UInt64} {p : Partition} {e : State}

/-- Every effect changes a given extent in one of the ways. -/
theorem Effect.change (h : Effect s op s') (partition extent : UInt64) :
    Change partition extent op (op.writtenTo partition extent).toList
      (s.extentAt partition extent) (s'.extentAt partition extent) := by
  cases h with
  | queried hop =>
    rw [hop.writtenTo_eq_none]
    exact .kept _
  | found => exact .kept _
  | @created p x _ he =>
    rw [extentAt_setExtent rfl]
    split
    · rename_i hsame
      obtain ⟨rfl, rfl⟩ := hsame
      rw [he]
      exact .created rfl
    · exact .kept _
  | @written q x offset bytes p e hp he _ hstart =>
    obtain ⟨-, hextent, hdeleted⟩ := Partition.live_eq_ok_iff.mp he
    rw [extentAt_setExtent_of_some hp, Operation.writtenTo]
    by_cases hsame : q = partition ∧ x = extent
    · obtain ⟨rfl, rfl⟩ := hsame
      rw [extentAt, hp, Option.bind_some, hextent, if_pos ⟨rfl, rfl⟩, if_pos ⟨rfl, rfl⟩]
      exact .written (w := ⟨offset.toNatClampNeg, bytes⟩) (if_pos ⟨rfl, rfl⟩) hdeleted hstart
    · rw [if_neg hsame, if_neg fun h ↦ hsame ⟨h.1.symm, h.2.symm⟩]
      exact .kept _
  | @deleted q x p e hp he =>
    obtain ⟨-, hextent, -⟩ := Partition.live_eq_ok_iff.mp he
    rw [extentAt_setExtent_of_some hp]
    split
    · rename_i hsame
      obtain ⟨rfl, rfl⟩ := hsame
      rw [extentAt, hp, Option.bind_some, hextent]
      exact .deleted rfl
    · exact .kept _
  | notified hp =>
    rw [extentAt_setPartition_of_extents_eq (by rw [partitionAt_of_some hp])]
    exact .kept _
  | broughtOnline =>
    rw [extentAt_createPartition]
    exact .kept _
  | takenOffline hp =>
    rw [extentAt_setPartition_of_extents_eq (by rw [partitionAt_of_some hp])]
    exact .kept _
  | removed =>
    rw [extentAt_erase]
    split
    · rename_i hsame
      exact .removed (by rw [hsame])
    · exact .kept _
  | missing => exact .kept _

/-! ## The log of a run -/

def log : List Operation → Store → List Operation
  | [], _ => []
  | op :: ops, s =>
    if (engine op s).1.isOk then op :: log ops (engine op s).2 else log ops (engine op s).2

def writesTo (partition extent : UInt64) (ops : List Operation) (s : Store) : List Written :=
  (log ops s).filterMap (Operation.writtenTo partition extent)

theorem log_append (before after : List Operation) (s : Store) :
    log (before ++ after) s = log before s ++ log after (run before s) := by
  induction before generalizing s with
  | nil => rfl
  | cons op before ih =>
    simp only [List.cons_append, log, ih]
    split <;> rfl

theorem writesTo_append (before after : List Operation) (s : Store) :
    writesTo partition extent (before ++ after) s =
      writesTo partition extent before s ++ writesTo partition extent after (run before s) := by
  rw [writesTo, log_append, List.filterMap_append]
  rfl

/-- Every operation, failed ones included, changes a given extent in one of the ways. -/
theorem change_engine (op : Operation) (s : Store) (partition extent : UInt64) :
    Change partition extent op (writesTo partition extent [op] s)
      (s.extentAt partition extent) ((engine op s).2.extentAt partition extent) := by
  rcases engine_cases op s with ⟨fault, h⟩ | ⟨a, s', h, heffect⟩
  · have hwrites : writesTo partition extent [op] s = [] := by
      simp [writesTo, log, h, Except.isOk, Except.toBool]
    rw [hwrites, h]
    exact .kept _
  · have hwrites : writesTo partition extent [op] s = (op.writtenTo partition extent).toList := by
      simp only [writesTo, log, h, Except.isOk, Except.toBool, if_true, List.filterMap_cons]
      cases op.writtenTo partition extent <;> rfl
    rw [hwrites, h]
    exact heffect.change partition extent

/-- An operation does nothing to an extent that it does not name, unless it removes its partition. -/
theorem extentAt_engine_of_target_ne (htarget : op.target ≠ some (partition, extent))
    (hop : op ≠ .command .deleteDataPartition partition) (s : Store) :
    (engine op s).2.extentAt partition extent = s.extentAt partition extent := by
  have hchange := change_engine op s partition extent
  generalize writesTo partition extent [op] s = writes at hchange
  generalize s.extentAt partition extent = x, (engine op s).2.extentAt partition extent = y at hchange
  cases hchange with
  | kept => rfl
  | created h => exact absurd (by rw [h]; rfl) htarget
  | written h => exact absurd (Operation.target_of_writtenTo h) htarget
  | deleted h => exact absurd (by rw [h]; rfl) htarget
  | removed h => exact absurd h hop

/-! ## The last creation of an extent -/

def Creates (partition extent : UInt64) (op : Operation) (s : Store) : Prop :=
  s.extentAt partition extent = none ∧ (engine op s).2.extentAt partition extent ≠ none

instance (partition extent : UInt64) (op : Operation) (s : Store) :
    Decidable (Creates partition extent op s) :=
  inferInstanceAs (Decidable (_ ∧ _ ≠ _))

def NeverCreates (partition extent : UInt64) : List Operation → Store → Prop
  | [], _ => True
  | op :: ops, s =>
    ¬ Creates partition extent op s ∧ NeverCreates partition extent ops (engine op s).2

instance instDecidableNeverCreates (partition extent : UInt64) :
    (ops : List Operation) → (s : Store) → Decidable (NeverCreates partition extent ops s)
  | [], _ => inferInstanceAs (Decidable True)
  | op :: ops, s =>
    have := instDecidableNeverCreates partition extent ops (engine op s).2
    inferInstanceAs (Decidable (¬ Creates partition extent op s ∧ _))

/-- A run splits at the operation that created an extent last. -/
structure LastCreated (partition extent : UInt64) (s : Store) (ops before after : List Operation) :
    Prop where
  split : ops = before ++ .createExtent partition extent :: after
  creates : Creates partition extent (.createExtent partition extent) (run before s)
  never : NeverCreates partition extent after (run (before ++ [.createExtent partition extent]) s)

theorem neverCreates_concat :
    NeverCreates partition extent (ops ++ [op]) s ↔
      NeverCreates partition extent ops s ∧ ¬ Creates partition extent op (run ops s) := by
  induction ops generalizing s with
  | nil => simp [NeverCreates]
  | cons o ops ih => simp only [List.cons_append, NeverCreates, ih, and_assoc]; rfl

/-- What comes into being is a blank extent, and the operation asked for it. -/
theorem Creates.eq_createExtent (h : Creates partition extent op s) :
    op = .createExtent partition extent ∧
      (engine op s).2.extentAt partition extent = some .blank := by
  obtain ⟨hbefore, hafter⟩ := h
  have hchange := change_engine op s partition extent
  rw [hbefore] at hchange
  generalize (engine op s).2.extentAt partition extent = y at hchange hafter
  generalize writesTo partition extent [op] s = writes at hchange
  cases hchange with
  | kept => exact absurd rfl hafter
  | created hop => exact ⟨hop, rfl⟩
  | removed => exact absurd rfl hafter

theorem exists_lastCreated {capacity : UInt64}
    (he : (Store.run ops (empty capacity)).extentAt partition extent ≠ none) :
    ∃ before after, LastCreated partition extent (empty capacity) ops before after := by
  induction ops using List.reverseRecOn with
  | nil => exact absurd rfl he
  | append_singleton ops op ih =>
    rw [run_concat] at he
    -- The last operation creates the extent, or finds what an earlier one created.
    by_cases hcreates : Creates partition extent op (Store.run ops (empty capacity))
    · obtain ⟨rfl, -⟩ := hcreates.eq_createExtent
      exact ⟨ops, [], rfl, hcreates, trivial⟩
    · have hbefore : (Store.run ops (empty capacity)).extentAt partition extent ≠ none :=
        fun hnone ↦ hcreates ⟨hnone, he⟩
      obtain ⟨before, after, rfl, hfirst, hnever⟩ := ih hbefore
      refine ⟨before, after ++ [op], ?_, hfirst, neverCreates_concat.mpr ⟨hnever, ?_⟩⟩
      · simp
      · rw [← run_append]
        simpa using hcreates

/-! ## What an extent holds -/

/-- An operation that does not create an extent and leaves it alive found it alive, and what it wrote
there is added to the history. -/
theorem leftBy_engine {writes : List Written} (hcreates : ¬ Creates partition extent op s)
    (he : (engine op s).2.extentAt partition extent = some e) (hdeleted : e.deleted = false)
    (h : ∀ e', s.extentAt partition extent = some e' → e'.deleted = false →
      LeftBy writes e'.content) :
    LeftBy (writes ++ writesTo partition extent [op] s) e.content := by
  have hbefore : s.extentAt partition extent ≠ none := fun hnone ↦ hcreates ⟨hnone, by simp [he]⟩
  have hchange := change_engine op s partition extent
  rw [he] at hchange
  generalize s.extentAt partition extent = x at hchange hbefore h
  generalize writesTo partition extent [op] s = written at hchange
  -- A buried extent is not dug up, so the extent was alive before and `h` applies to it.
  cases hchange with
  | kept =>
    rw [List.append_nil]
    exact h e rfl hdeleted
  | created => exact absurd rfl hbefore
  | @written w e' _ halive hstart => exact (h e' rfl halive).write hstart
  | deleted => cases hdeleted

/-- Since an extent came into being it holds what was written to it. -/
theorem leftBy_of_neverCreates (hs : s.extentAt partition extent = some .blank)
    (hnever : NeverCreates partition extent ops s)
    (he : (run ops s).extentAt partition extent = some e) (hdeleted : e.deleted = false) :
    LeftBy (writesTo partition extent ops s) e.content := by
  induction ops using List.reverseRecOn generalizing e with
  | nil =>
    rw [run_nil, hs] at he
    cases he
    exact leftBy_nil
  | append_singleton ops op ih =>
    obtain ⟨hops, hop⟩ := neverCreates_concat.mp hnever
    rw [run_concat] at he
    rw [writesTo_append]
    exact leftBy_engine hop he hdeleted fun _ ↦ ih hops

/-- The outcome of a read from a live extent. -/
theorem engine_read_of_live (he : s.Live partition extent e) (offset : Int64) (size : UInt32) :
    (engine (.read partition extent offset size) s).1 =
      if 0 ≤ offset ∧ offset.toNatClampNeg + size.toNat ≤ e.content.size then
        .ok (.bytes (e.content.extract offset.toNatClampNeg (offset.toNatClampNeg + size.toNat)))
      else .error .paramMismatch := by
  obtain ⟨p, hp, hlive⟩ := he.exists_live
  by_cases hoffset : offset < 0
  · have hout : ¬ 0 ≤ offset := Int64.not_le.mpr hoffset
    simp only [engine, perform, read, if_pos hoffset, hout, Except.map, false_and, if_false]
  · have hin : 0 ≤ offset := Int64.not_lt.mp hoffset
    by_cases hfits : offset.toNatClampNeg + size.toNat ≤ e.content.size
    · simp only [engine, perform, read, if_neg hoffset, hp, hlive, if_neg (Nat.not_lt.mpr hfits),
        if_pos (And.intro hin hfits), Except.map]
    · simp only [engine, perform, read, if_neg hoffset, hp, hlive, if_pos (Nat.lt_of_not_le hfits),
        if_neg (mt And.right hfits), Except.map]

/-- At the end of every run that begins with an empty store, what a live extent holds is what the
successful operations wrote to it since it was created last.  A read returns the bytes that it names if
they are all there and is refused otherwise.  No operation that does not name the extent changes it,
other than the removal of its partition. -/
theorem live_content_eq_history {capacity : UInt64}
    (he : (Store.run ops (empty capacity)).Live partition extent e) :
    (∃ before after, LastCreated partition extent (empty capacity) ops before after) ∧
      (∀ before after, LastCreated partition extent (empty capacity) ops before after →
        LeftBy (writesTo partition extent after
          (Store.run (before ++ [.createExtent partition extent]) (empty capacity))) e.content) ∧
      (∀ offset size,
        (engine (.read partition extent offset size) (Store.run ops (empty capacity))).1 =
          if 0 ≤ offset ∧ offset.toNatClampNeg + size.toNat ≤ e.content.size then
            .ok (.bytes (e.content.extract offset.toNatClampNeg (offset.toNatClampNeg + size.toNat)))
          else .error .paramMismatch) ∧
      ∀ op s, Operation.target op ≠ some (partition, extent) →
        op ≠ .command .deleteDataPartition partition →
        (engine op s).2.extentAt partition extent = s.extentAt partition extent := by
  obtain ⟨-, hextent, hdeleted⟩ := live_iff.mp he
  refine ⟨exists_lastCreated (by simp [hextent]), ?_, engine_read_of_live he,
    fun op s htarget hop ↦ extentAt_engine_of_target_ne htarget hop s⟩
  rintro before after ⟨rfl, hcreates, hnever⟩
  have hblank := hcreates.eq_createExtent.2
  rw [← run_concat] at hblank
  refine leftBy_of_neverCreates hblank hnever ?_ hdeleted
  rw [← run_append]
  simpa using hextent

/-- An extent is written, lost with its partition, created anew and written again, with a refused write
and a second request to create it in between. -/
theorem live_content_eq_history_recreated :
    let ops : List Operation := [.createExtent 1 100, .write 1 100 0 (Bytes.ofText "abcdefgh"),
      .command .deleteDataPartition 1, .createExtent 1 100, .write 1 100 0 (Bytes.ofText "hello"),
      .write 1 100 9 (Bytes.ofText "no"), .createExtent 1 100, .write 1 100 3 (Bytes.ofText "LO!!")]
    let s := Store.run ops (empty 64)
    LeftBy [⟨0, Bytes.ofText "hello"⟩, ⟨3, Bytes.ofText "LO!!"⟩] (Bytes.ofText "helLO!!") ∧
      (engine (.read 1 100 3 4) s).1 = .ok (.bytes (Bytes.ofText "LO!!")) ∧
      (engine (.read 1 100 3 5) s).1 = .error .paramMismatch ∧
      (engine (.markDelete 1 7) s).2.extentAt 1 100 = some ⟨Bytes.ofText "helLO!!", false⟩ := by
  intro ops s
  have hlive : s.Live 1 100 ⟨Bytes.ofText "helLO!!", false⟩ := live_iff.mpr (by decide +kernel)
  obtain ⟨-, hcontent, hread, hframe⟩ := live_content_eq_history hlive
  have hsplit : LastCreated 1 100 (empty 64) ops (ops.take 3) (ops.drop 4) :=
    ⟨rfl, by decide +kernel, by decide +kernel⟩
  have hwrites : writesTo 1 100 (ops.drop 4) (Store.run (ops.take 3 ++ [.createExtent 1 100])
      (empty 64)) = [⟨0, Bytes.ofText "hello"⟩, ⟨3, Bytes.ofText "LO!!"⟩] := by decide +kernel
  refine ⟨hwrites ▸ hcontent _ _ hsplit, ?_, ?_, ?_⟩
  · rw [hread]
    decide
  · rw [hread]
    decide
  · rw [hframe _ _ (by decide) (by decide)]
    exact (live_iff.mp hlive).2.1

end Store

end Extent

end ReplicaChain
