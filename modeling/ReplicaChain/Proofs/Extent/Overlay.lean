import ReplicaChain.Proofs.Extent.History

/-!
# Writes in any order

What an extent holds depends on the order of the writes to it only where they put different bytes in one
place.  The bytes of an extent are therefore described by what was there before and by a set of writes that
have been done since, in whatever order: a byte that one of them covers is as that write has it, and all
other bytes are as before.
-/

namespace ReplicaChain.Extent

variable {w w' : Written} {base bytes bytes' : Nat → Option UInt8} {writes writes' : Written → Prop}
  {i : Nat}

/-! ## Writes that agree -/

def Written.byteAt (i : Nat) (w : Written) : Option UInt8 :=
  w.bytes.data[i - w.start]?

/-- Two writes put the same byte in every place that both cover. -/
def Written.Agrees (w w' : Written) : Prop :=
  ∀ i < w.stop, w.Covers i → w'.Covers i → w.byteAt i = w'.byteAt i

instance (w w' : Written) : Decidable (w.Agrees w') :=
  inferInstanceAs (Decidable (∀ i < w.stop, w.Covers i → w'.Covers i → w.byteAt i = w'.byteAt i))

theorem Written.Agrees.byteAt_eq (h : w.Agrees w') (hi : w.Covers i) (hi' : w'.Covers i) :
    w.byteAt i = w'.byteAt i :=
  h i hi.2 hi hi'

theorem Written.Agrees.refl (w : Written) : w.Agrees w :=
  fun _ _ _ _ ↦ rfl

theorem Written.Agrees.symm (h : w.Agrees w') : w'.Agrees w :=
  fun _ _ hi' hi ↦ (h.byteAt_eq hi hi').symm

/-! ## Bytes beneath writes -/

def Written.over (base : Nat → Option UInt8) (w : Written) (i : Nat) : Option UInt8 :=
  if w.Covers i then w.byteAt i else base i

/-- Bytes are as some writes have them, and as before where none of the writes covers them. -/
structure Overlaid (base : Nat → Option UInt8) (writes : Written → Prop)
    (bytes : Nat → Option UInt8) : Prop where
  covered : ∀ w, writes w → ∀ i, w.Covers i → bytes i = w.byteAt i
  bare : ∀ i, (∀ w, writes w → ¬ w.Covers i) → bytes i = base i

namespace Overlaid

theorem refl (base : Nat → Option UInt8) (hnone : ∀ w, ¬ writes w) : Overlaid base writes base where
  covered w hw := absurd hw (hnone w)
  bare _ _ := rfl

theorem congr (h : Overlaid base writes bytes) (hsame : ∀ w, writes' w ↔ writes w) :
    Overlaid base writes' bytes where
  covered w hw := h.covered w ((hsame w).mp hw)
  bare i hi := h.bare i fun w hw ↦ hi w ((hsame w).mpr hw)

/-- A write that agrees with all others can be done after them. -/
theorem add (h : Overlaid base writes bytes) (hagrees : ∀ w', writes w' → w.Agrees w') :
    Overlaid base (fun w' ↦ writes w' ∨ w' = w) (w.over bytes) where
  covered w' hw' i hi := by
    rw [Written.over]
    split
    · rename_i hcovers
      rcases hw' with hw' | rfl
      · exact (hagrees w' hw').byteAt_eq hcovers hi
      · rfl
    · rename_i hcovers
      rcases hw' with hw' | rfl
      · exact h.covered w' hw' i hi
      · exact absurd hi hcovers
  bare i hi := by
    rw [Written.over, if_neg (hi w (.inr rfl))]
    exact h.bare i fun w' hw' ↦ hi w' (.inl hw')

/-- A write that was done can be seen as done before all others. -/
theorem settle (h : Overlaid base writes bytes) (hw : writes w)
    (hsubset : ∀ w', writes' w' → writes w') (hrest : ∀ w', writes w' → writes' w' ∨ w' = w) :
    Overlaid (w.over base) writes' bytes where
  covered w' hw' := h.covered w' (hsubset w' hw')
  bare i hi := by
    rw [Written.over]
    split
    · rename_i hcovers
      exact h.covered w hw i hcovers
    · rename_i hcovers
      refine h.bare i fun w' hw' ↦ ?_
      rcases hrest w' hw' with hw' | rfl
      · exact hi w' hw'
      · exact hcovers

/-- When all writes are seen as done before, the bytes are known. -/
theorem eq_base (h : Overlaid base writes bytes) (hnone : ∀ w, ¬ writes w) : bytes = base :=
  funext fun i ↦ h.bare i fun w hw ↦ absurd hw (hnone w)

end Overlaid

/-! ## Bytes of extents -/

/-- The bytes of an extent, of which there are none if it does not exist. -/
def bytesOf (x : Option State) (i : Nat) : Option UInt8 :=
  x.bind (·.content.data[i]?)

/-- An extent is known by its bytes and by whether it exists and is deleted. -/
theorem eq_of_bytesOf_eq {x y : Option State} (hdeleted : x.map State.deleted = y.map State.deleted)
    (hbytes : bytesOf x = bytesOf y) : x = y := by
  rcases x with _ | ⟨⟨content⟩, deleted⟩ <;> rcases y with _ | ⟨⟨content'⟩, deleted'⟩
  · rfl
  · cases hdeleted
  · cases hdeleted
  · obtain rfl : deleted = deleted' := Option.some.inj hdeleted
    obtain rfl : content = content' := Array.ext_getElem? fun i ↦ congrFun hbytes i
    rfl

namespace Store

variable {s s' : Store} {partition extent : UInt64}

/-- A write that succeeds is done over the bytes of its extent and changes nothing else. -/
theorem Effect.bytesOf_write {q x : UInt64} {offset : Int64} {data : ByteArray}
    (h : Effect s (.write q x offset data) s') (partition extent : UInt64) :
    (s'.extentAt partition extent).map State.deleted =
        (s.extentAt partition extent).map State.deleted ∧
      bytesOf (s'.extentAt partition extent) =
        ((Operation.write q x offset data).writtenTo partition extent).elim
          (bytesOf (s.extentAt partition extent)) (Written.over (bytesOf (s.extentAt partition extent))) := by
  have hchange := h.change partition extent
  generalize hop : Operation.write q x offset data = op at hchange
  generalize s.extentAt partition extent = e, s'.extentAt partition extent = e' at hchange
  cases hw : op.writtenTo partition extent with
  | none =>
    rw [hw] at hchange
    cases hchange with
    | kept => exact ⟨rfl, rfl⟩
    | created h | deleted h | removed h => cases hop.trans h
  | some w =>
    rw [hw] at hchange
    cases hchange with
    | @written w e _ _ hstart =>
      refine ⟨rfl, funext fun i ↦ ?_⟩
      exact Bytes.getElem?_overwrite hstart i

end Store

end ReplicaChain.Extent
