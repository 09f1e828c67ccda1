import ReplicaChain.Proofs.Extent.Repetition

/-!
# Operations carried out in place

`Store.perform` yields a whole new store or a fault and no store.  A storage that keeps its extents in
memory works in place instead: it looks something up, may create a partition on the way, checks one thing
after the other, and changes its maps and its count of used bytes one by one.  Whatever it changed before
a check fails stays changed.

The operations of this module are such programs.  A `Procedure` has one store at hand and either goes on
or stops with a fault, and the store stays as the last step left it.  Each program is shown to do what the
operation of the same name does: whenever it stops with a fault it has not changed anything yet.
-/

namespace ReplicaChain

/-- Bytes that are going to be overwritten up to their end need not be made longer before. -/
theorem Bytes.overwrite_resize {offset : Nat} {data b : ByteArray} (h : offset ≤ b.size)
    (hshort : b.size < offset + data.size) :
    overwrite offset data (resize (offset + data.size) b) = overwrite offset data b := by
  have hlonger : offset ≤ (resize (offset + data.size) b).size := by
    rw [size_resize]
    exact Nat.le_add_right ..
  apply ByteArray.ext
  apply Array.ext_getElem?
  intro i
  rw [getElem?_overwrite hlonger, getElem?_overwrite h]
  split
  · rfl
  · rename_i hout
    -- Zeros stand only where new bytes go.
    rw [resize, if_neg (Nat.not_le.mpr hshort), ByteArray.data_append, Array.getElem?_append,
      ByteArray.size_data]
    split
    · rfl
    · rename_i hend
      have hnew : b.data.size = b.size := ByteArray.size_data
      rw [Array.getElem?_eq_none, Array.getElem?_eq_none]
      · omega
      · rw [ByteArray.size_data, size_zeros]
        omega

namespace Extent

theorem Partition.getElem?_withExtent_self {extent : UInt64} {p : Partition} {e : State} :
    (p.withExtent extent e).extents[extent]? = some e := by
  simp [withExtent]

namespace Store

variable {s : Store} {partition : UInt64} {p : Partition}

/-- A partition that is put back leaves the store as it was. -/
theorem setPartition_of_some (hp : s.partitions[partition]? = some p) :
    s.setPartition partition p = s := by
  suffices s.partitions.insert partition p = s.partitions by rw [setPartition, this]
  apply Std.ExtTreeMap.ext_getElem?
  intro k
  rw [Std.ExtTreeMap.getElem?_insert]
  split
  · rename_i hk
    rw [← hp, Std.compare_eq_iff_eq.mp hk]
  · rfl

/-- A partition that is not there can be removed without effect. -/
theorem erase_of_none (hp : s.partitions[partition]? = none) :
    s.partitions.erase partition = s.partitions := by
  apply Std.ExtTreeMap.ext_getElem?
  intro k
  rw [Std.ExtTreeMap.getElem?_erase]
  split
  · rename_i hk
    rw [← hp, Std.compare_eq_iff_eq.mp hk]
  · rfl

end Store

/-! ## Procedures -/

/-- A program that works on one store and may stop with a fault.  The store stays as it is then. -/
abbrev Procedure (α : Type) :=
  ExceptT StorageFault (StateM Store) α

namespace Procedure

variable {α β : Type} {x : Procedure α} {f : α → Procedure β} {s s' : Store} {a : α}
  {fault : StorageFault}

/-- How a program ends, and the store that it leaves. -/
def outcome (x : Procedure α) (s : Store) : Except StorageFault α × Store :=
  x.run.run s

@[simp]
theorem outcome_pure : outcome (pure a) s = (.ok a, s) := rfl

@[simp]
theorem outcome_throw : outcome (throw fault : Procedure α) s = (.error fault, s) := rfl

@[simp]
theorem outcome_get : outcome get s = (.ok s, s) := rfl

@[simp]
theorem outcome_modify {change : Store → Store} :
    outcome (modify change) s = (.ok (), change s) := rfl

theorem outcome_bind_of_ok (h : outcome x s = (.ok a, s')) :
    outcome (x >>= f) s = outcome (f a) s' := by
  change (match outcome x s with | (r, t) => (ExceptT.bindCont f r).run t) = _
  rw [h]
  rfl

theorem outcome_bind_of_error (h : outcome x s = (.error fault, s')) :
    outcome (x >>= f) s = (.error fault, s') := by
  change (match outcome x s with | (r, t) => (ExceptT.bindCont f r).run t) = _
  rw [h]
  rfl

/-! ## Steps -/

/-- Goes on with what was found and stops with a fault if nothing was. -/
def require (fault : StorageFault) : Option α → Procedure α
  | none => throw fault
  | some a => pure a

def refuseIf (refused : Prop) [Decidable refused] (fault : StorageFault) : Procedure Unit :=
  if refused then throw fault else pure ()

def findPartition (partition : UInt64) : Procedure Partition := do
  require .extentNotFound (← get).partitions[partition]?

/-- A partition, which is added without extents if it is not there. -/
def obtainPartition (partition : UInt64) : Procedure Partition := do
  match (← get).partitions[partition]? with
  | some p => pure p
  | none =>
    modify (·.setPartition partition .blank)
    pure .blank

/-- Changes an extent where it is.  Its partition and the extent itself are looked up again. -/
def changeExtent (partition extent : UInt64) (change : State → State) : Procedure Unit := do
  let p ← findPartition partition
  let e ← require .extentNotFound p.extents[extent]?
  modify (·.setExtent partition extent p (change e))

/-- Puts bytes into an extent, which is made longer first if it ends before they do. -/
def fill (partition extent : UInt64) (start : Nat) (bytes : ByteArray) : Procedure Unit := do
  let p ← findPartition partition
  let e ← require .extentNotFound p.extents[extent]?
  let stop := start + bytes.size
  if e.content.size < stop then
    changeExtent partition extent fun e ↦ { e with content := Bytes.resize stop e.content }
  changeExtent partition extent fun e ↦ { e with content := Bytes.overwrite start bytes e.content }

/-- Buries an extent, drops its bytes, and gives back how many they were. -/
def bury (partition extent : UInt64) : Procedure UInt64 := do
  let p ← findPartition partition
  let e ← require .extentNotFound p.extents[extent]?
  changeExtent partition extent fun e ↦ { e with deleted := true }
  changeExtent partition extent fun e ↦ { e with content := .empty }
  pure (.ofNat e.content.size)

def countUsed (used : UInt64) : Procedure Unit :=
  modify ({ · with used })

@[simp]
theorem outcome_require_none : outcome (require fault none : Procedure α) s = (.error fault, s) := rfl

@[simp]
theorem outcome_require_some : outcome (require fault (some a)) s = (.ok a, s) := rfl

@[simp]
theorem outcome_ofExcept_ok : outcome (ofExcept (.ok a)) s = (.ok a, s) := rfl

@[simp]
theorem outcome_ofExcept_error :
    outcome (ofExcept (.error fault) : Procedure α) s = (.error fault, s) := rfl

@[simp]
theorem outcome_countUsed {used : UInt64} :
    outcome (countUsed used) s = (.ok (), { s with used }) := rfl

section Steps

variable {partition extent : UInt64} {p : Partition} {e : State} {change : State → State}
  {refused : Prop} [Decidable refused]

theorem outcome_refuseIf_bind {f : Unit → Procedure α} :
    outcome (refuseIf refused fault >>= f) s =
      if refused then (.error fault, s) else outcome (f ()) s := by
  unfold refuseIf
  split
  · exact outcome_bind_of_error outcome_throw
  · exact outcome_bind_of_ok outcome_pure

theorem outcome_findPartition_bind {f : Partition → Procedure α} :
    outcome (findPartition partition >>= f) s =
      match s.partitions[partition]? with
      | none => (.error .extentNotFound, s)
      | some p => outcome (f p) s := by
  have hfound : outcome (findPartition partition) s =
      outcome (require .extentNotFound s.partitions[partition]?) s := outcome_bind_of_ok outcome_get
  cases hp : s.partitions[partition]? with
  | none => exact outcome_bind_of_error (by rw [hfound, hp, outcome_require_none])
  | some p => exact outcome_bind_of_ok (by rw [hfound, hp, outcome_require_some])

theorem outcome_ofExcept_bind {r : Except StorageFault β} {f : β → Procedure α} :
    outcome (ofExcept r >>= f) s =
      match r with
      | .error fault => (.error fault, s)
      | .ok b => outcome (f b) s := by
  cases r with
  | error fault => exact outcome_bind_of_error outcome_ofExcept_error
  | ok b => exact outcome_bind_of_ok outcome_ofExcept_ok

theorem outcome_obtainPartition :
    outcome (obtainPartition partition) s =
      (.ok (s.partitionAt partition), s.setPartition partition (s.partitionAt partition)) := by
  rw [obtainPartition, outcome_bind_of_ok outcome_get]
  cases hp : s.partitions[partition]? with
  | none =>
    rw [Store.partitionAt, hp]
    rfl
  | some p =>
    rw [Store.partitionAt_of_some hp, Store.setPartition_of_some hp, outcome_pure]

theorem outcome_changeExtent (hp : s.partitions[partition]? = some p)
    (he : p.extents[extent]? = some e) :
    outcome (changeExtent partition extent change) s =
      (.ok (), s.setExtent partition extent p (change e)) := by
  rw [changeExtent, outcome_findPartition_bind, hp]
  dsimp only
  rw [he, outcome_bind_of_ok outcome_require_some, outcome_modify]

/-- An extent that was changed is there to be changed again. -/
theorem outcome_changeExtent_again :
    outcome (changeExtent partition extent change) (s.setExtent partition extent p e) =
      (.ok (), s.setExtent partition extent p (change e)) := by
  rw [Store.setExtent_eq,
    outcome_changeExtent Store.getElem?_setPartition_self Partition.getElem?_withExtent_self,
    Store.setExtent_eq, Partition.withExtent_withExtent]
  exact congrArg (Prod.mk _) Store.setPartition_setPartition

theorem outcome_fill {start : Nat} {bytes : ByteArray} (hp : s.partitions[partition]? = some p)
    (he : p.extents[extent]? = some e) (hstart : start ≤ e.content.size) :
    outcome (fill partition extent start bytes) s =
      (.ok (), s.setExtent partition extent p
        { e with content := Bytes.overwrite start bytes e.content }) := by
  rw [fill, outcome_findPartition_bind, hp]
  dsimp only
  rw [he, outcome_bind_of_ok outcome_require_some]
  split
  · rename_i hshort
    rw [outcome_bind_of_ok (outcome_changeExtent hp he), outcome_changeExtent_again,
      Bytes.overwrite_resize hstart hshort]
  · exact outcome_changeExtent hp he

theorem outcome_bury (hp : s.partitions[partition]? = some p) (he : p.extents[extent]? = some e) :
    outcome (bury partition extent) s =
      (.ok (.ofNat e.content.size), s.setExtent partition extent p .tombstone) := by
  rw [bury, outcome_findPartition_bind, hp]
  dsimp only
  rw [he, outcome_bind_of_ok outcome_require_some, outcome_bind_of_ok (outcome_changeExtent hp he),
    outcome_bind_of_ok outcome_changeExtent_again]
  rfl

end Steps

/-! ## Operations -/

/-- Creates an extent.  Its partition is there from the first look at it. -/
def createExtent (partition extent : UInt64) : Procedure Answer := do
  let p ← obtainPartition partition
  refuseIf p.offline .tryAgain
  match p.extents[extent]? with
  | some e => refuseIf e.deleted .extentDeleted
  | none => modify (·.setExtent partition extent p .blank)
  pure .done

/-- Stores bytes in an extent.  The space is counted last, from what was used at the beginning. -/
def write (partition extent : UInt64) (offset : Int64) (bytes : ByteArray) : Procedure Answer := do
  refuseIf (offset < 0) .paramMismatch
  let start := offset.toNatClampNeg
  let used := (← get).used
  let p ← findPartition partition
  let current := (← ofExcept (p.live extent)).content.size
  refuseIf (current < start) .paramMismatch
  let growth := UInt64.ofNat (start + bytes.size - current)
  refuseIf ((← get).capacity < used + growth) .noSpace
  fill partition extent start bytes
  countUsed (used + growth)
  pure .done

def read (partition extent : UInt64) (offset : Int64) (size : UInt32) : Procedure Answer := do
  refuseIf (offset < 0) .paramMismatch
  let start := offset.toNatClampNeg
  let stop := start + size.toNat
  let p ← findPartition partition
  let e ← ofExcept (p.live extent)
  refuseIf (e.content.size < stop) .paramMismatch
  pure (.bytes (e.content.extract start stop))

/-- Deletes an extent.  Its space is freed last. -/
def markDelete (partition extent : UInt64) : Procedure Answer := do
  let p ← findPartition partition
  let _ ← ofExcept (p.live extent)
  let freed ← bury partition extent
  countUsed ((← get).used - freed)
  pure .done

def watermarks (partition : UInt64) (mode : Wire.ExtentMode) : Procedure Answer := do
  let p ← findPartition partition
  pure (.watermarks (p.watermarks (some mode)))

def notifyRepair (partition : UInt64) : Procedure Answer := do
  let p ← findPartition partition
  modify (·.setPartition partition { p with repairRequests := p.repairRequests + 1 })
  pure .done

def createPartition (partition : UInt64) : Procedure Answer := do
  let p ← obtainPartition partition
  modify (·.setPartition partition { p with offline := false })
  pure (.bytes .empty)

/-- Takes a partition out of the map, and frees the bytes of its extents if it was there. -/
def deletePartition (partition : UInt64) : Procedure Answer := do
  let found := (← get).partitions[partition]?
  modify fun s ↦ { s with partitions := s.partitions.erase partition }
  match found with
  | some p => countUsed ((← get).used - .ofNat p.size)
  | none => pure ()
  pure (.bytes .empty)

def takeOffline (partition : UInt64) : Procedure Answer := do
  let p ← findPartition partition
  modify (·.setPartition partition { p with offline := true })
  pure (.bytes .empty)

def loadReport (partition : UInt64) : Procedure Answer := do
  let p ← findPartition partition
  pure (.bytes (reportWatermarks (p.watermarks none)).toUTF8)

def heartbeat : Procedure Answer := do
  pure (.bytes (← get).heartbeat)

def command (opcode : Wire.Opcode) (partition : UInt64) : Procedure Answer :=
  match opcode with
  | .createDataPartition => createPartition partition
  | .deleteDataPartition => deletePartition partition
  | .offlineDataPartition => takeOffline partition
  | .loadDataPartition => loadReport partition
  | .dataNodeHeartbeat => heartbeat
  | _ => throw .paramMismatch

def perform : Operation → Procedure Answer
  | .createExtent partition extent => createExtent partition extent
  | .write partition extent offset bytes => write partition extent offset bytes
  | .read partition extent offset size => read partition extent offset size
  | .markDelete partition extent => markDelete partition extent
  | .watermarks partition mode => watermarks partition mode
  | .notifyRepair partition => notifyRepair partition
  | .command opcode partition => command opcode partition

end Procedure

namespace Store

open Procedure

def inPlace : Engine Store := fun op ↦
  (Procedure.perform op).outcome

variable {s : Store} {partition extent : UInt64} {p : Partition} {e : State}

/-- The partition that is added for an extent is added only if the extent is. -/
theorem outcome_createExtent :
    (Procedure.createExtent partition extent).outcome s = engine (.createExtent partition extent) s := by
  rw [Procedure.createExtent, outcome_bind_of_ok outcome_obtainPartition, engine, perform,
    Store.createExtent]
  cases hp : s.partitions[partition]? with
  | none =>
    have hblank : s.partitionAt partition = .blank := by rw [partitionAt, hp, Option.getD_none]
    have hempty : Partition.blank.extents[extent]? = none := by simp [Partition.blank]
    have hagain : (s.setPartition partition .blank).setExtent partition extent .blank .blank =
        s.setExtent partition extent .blank .blank := setPartition_setPartition
    rw [hblank, outcome_refuseIf_bind, if_neg (by decide), Option.getD_none, hempty,
      outcome_bind_of_ok outcome_modify, hagain]
    rfl
  | some p =>
    rw [partitionAt_of_some hp, setPartition_of_some hp, Option.getD_some, outcome_refuseIf_bind]
    cases honline : p.offline with
    | true => rfl
    | false =>
      rw [if_neg Bool.false_ne_true, if_neg Bool.false_ne_true]
      cases he : p.extents[extent]? with
      | none =>
        rw [outcome_bind_of_ok outcome_modify]
        rfl
      | some e =>
        dsimp only
        rw [outcome_refuseIf_bind]
        cases e.deleted <;> rfl

theorem outcome_write {offset : Int64} {bytes : ByteArray} :
    (Procedure.write partition extent offset bytes).outcome s =
      engine (.write partition extent offset bytes) s := by
  rw [Procedure.write, engine, perform, Store.write, outcome_refuseIf_bind]
  by_cases hoffset : offset < 0
  · rw [if_pos hoffset, if_pos hoffset]
    rfl
  rw [if_neg hoffset, if_neg hoffset, outcome_bind_of_ok outcome_get, outcome_findPartition_bind]
  cases hp : s.partitions[partition]? with
  | none => rfl
  | some p =>
    dsimp only
    rw [outcome_ofExcept_bind]
    cases he : p.live extent with
    | error fault => rfl
    | ok e =>
      dsimp only
      rw [outcome_refuseIf_bind]
      by_cases hstart : e.content.size < offset.toNatClampNeg
      · rw [if_pos hstart, if_pos hstart]
        rfl
      rw [if_neg hstart, if_neg hstart, outcome_bind_of_ok outcome_get, outcome_refuseIf_bind]
      by_cases hroom : s.capacity <
          s.used + .ofNat (offset.toNatClampNeg + bytes.size - e.content.size)
      · rw [if_pos hroom, if_pos hroom]
        rfl
      have hextent := (Partition.live_eq_ok_iff.mp he).2.1
      rw [if_neg hroom, if_neg hroom,
        outcome_bind_of_ok (outcome_fill hp hextent (Nat.le_of_not_lt hstart)),
        outcome_bind_of_ok outcome_countUsed]
      rfl

theorem outcome_read {offset : Int64} {size : UInt32} :
    (Procedure.read partition extent offset size).outcome s =
      engine (.read partition extent offset size) s := by
  rw [Procedure.read, engine, perform, Store.read, outcome_refuseIf_bind, outcome_findPartition_bind]
  by_cases hoffset : offset < 0
  · rw [if_pos hoffset, if_pos hoffset]
    rfl
  rw [if_neg hoffset, if_neg hoffset]
  cases hp : s.partitions[partition]? with
  | none => rfl
  | some p =>
    dsimp only
    rw [outcome_ofExcept_bind]
    cases he : p.live extent with
    | error fault => rfl
    | ok e =>
      dsimp only
      rw [outcome_refuseIf_bind]
      by_cases hstop : e.content.size < offset.toNatClampNeg + size.toNat
      · rw [if_pos hstop, if_pos hstop]
        rfl
      · rw [if_neg hstop, if_neg hstop]
        rfl

theorem outcome_markDelete :
    (Procedure.markDelete partition extent).outcome s = engine (.markDelete partition extent) s := by
  rw [Procedure.markDelete, engine, perform, Store.markDelete, outcome_findPartition_bind]
  cases hp : s.partitions[partition]? with
  | none => rfl
  | some p =>
    dsimp only
    rw [outcome_ofExcept_bind]
    cases he : p.live extent with
    | error fault => rfl
    | ok e =>
      have hextent := (Partition.live_eq_ok_iff.mp he).2.1
      dsimp only
      rw [outcome_bind_of_ok (outcome_bury hp hextent), outcome_bind_of_ok outcome_get,
        outcome_bind_of_ok outcome_countUsed]
      rfl

theorem outcome_watermarks {mode : Wire.ExtentMode} :
    (Procedure.watermarks partition mode).outcome s = engine (.watermarks partition mode) s := by
  rw [Procedure.watermarks, engine, perform, Store.watermarks, outcome_findPartition_bind]
  cases s.partitions[partition]? <;> rfl

theorem outcome_notifyRepair :
    (Procedure.notifyRepair partition).outcome s = engine (.notifyRepair partition) s := by
  rw [Procedure.notifyRepair, engine, perform, Store.notifyRepair, outcome_findPartition_bind]
  cases s.partitions[partition]? <;> rfl

theorem outcome_createPartition :
    (Procedure.createPartition partition).outcome s =
      engine (.command .createDataPartition partition) s := by
  have hagain : (s.setPartition partition (s.partitionAt partition)).setPartition partition
      { s.partitionAt partition with offline := false } = s.createPartition partition :=
    setPartition_setPartition
  rw [Procedure.createPartition, outcome_bind_of_ok outcome_obtainPartition,
    outcome_bind_of_ok outcome_modify, hagain]
  rfl

/-- A partition that is taken out of the map and was not there is no change. -/
theorem outcome_deletePartition :
    (Procedure.deletePartition partition).outcome s =
      engine (.command .deleteDataPartition partition) s := by
  rw [Procedure.deletePartition, outcome_bind_of_ok outcome_get, outcome_bind_of_ok outcome_modify,
    engine, perform, Store.command, Store.deletePartition]
  cases hp : s.partitions[partition]? with
  | none =>
    rw [erase_of_none hp]
    rfl
  | some p =>
    dsimp only
    rw [outcome_bind_of_ok outcome_get, outcome_bind_of_ok outcome_countUsed]
    rfl

theorem outcome_takeOffline :
    (Procedure.takeOffline partition).outcome s =
      engine (.command .offlineDataPartition partition) s := by
  rw [Procedure.takeOffline, engine, perform, Store.command, Store.takeOffline,
    outcome_findPartition_bind]
  cases s.partitions[partition]? <;> rfl

theorem outcome_loadReport :
    (Procedure.loadReport partition).outcome s =
      engine (.command .loadDataPartition partition) s := by
  rw [Procedure.loadReport, engine, perform, Store.command, Store.loadReport,
    outcome_findPartition_bind]
  cases s.partitions[partition]? <;> rfl

theorem outcome_command {opcode : Wire.Opcode} :
    (Procedure.command opcode partition).outcome s = engine (.command opcode partition) s := by
  unfold Procedure.command
  split
  · exact outcome_createPartition
  · exact outcome_deletePartition
  · exact outcome_takeOffline
  · exact outcome_loadReport
  · rfl
  · rename_i hcreate hdelete hoffline hload hheartbeat
    rw [engine, perform, Store.command]
    · rfl
    all_goals assumption

/-- Working in place gives the same answers and the same stores. -/
theorem inPlace_eq_engine : inPlace = engine := by
  funext op s
  cases op with
  | createExtent => exact outcome_createExtent
  | write => exact outcome_write
  | read => exact outcome_read
  | markDelete => exact outcome_markDelete
  | watermarks => exact outcome_watermarks
  | notifyRepair => exact outcome_notifyRepair
  | command => exact outcome_command

end Store

end Extent

end ReplicaChain
