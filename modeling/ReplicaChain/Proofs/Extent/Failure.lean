import ReplicaChain.Proofs.Extent.InPlace

/-!
# Operations that fail leave no trace

A run of operations can be cleared of the operations that failed.  Those that are left have the outcomes
that they had before, and the store is the same at the end.

An engine has this property if no failure changes its state.  For the engine of `Store.perform` this is how
it is made.  For the engine that works in place it is a fact about the order of its steps, since a step
comes between the checks that adds a partition.
-/

namespace ReplicaChain.Extent

namespace Engine

variable {ω : Type} {engine : Engine ω}

/-- A run of operations: each with its outcome, and the state at the end. -/
def transcript (engine : Engine ω) : List Operation → ω → List (Operation × Except StorageFault Answer) × ω
  | [], w => ([], w)
  | op :: ops, w =>
    let (outcome, w') := engine op w
    let (rest, last) := transcript engine ops w'
    ((op, outcome) :: rest, last)

/-- No failure changes the state. -/
def IsTraceless (engine : Engine ω) : Prop :=
  ∀ op w fault, (engine op w).1 = .error fault → (engine op w).2 = w

def successes (entries : List (Operation × Except StorageFault Answer)) :
    List (Operation × Except StorageFault Answer) :=
  entries.filter (·.2.isOk)

theorem transcript_cons (op : Operation) (ops : List Operation) (w : ω) :
    engine.transcript (op :: ops) w =
      ((op, (engine op w).1) :: (engine.transcript ops (engine op w).2).1,
        (engine.transcript ops (engine op w).2).2) := rfl

/-- A transcript is about the operations that were run, in their order. -/
theorem map_fst_transcript (ops : List Operation) (w : ω) :
    (engine.transcript ops w).1.map Prod.fst = ops := by
  induction ops generalizing w with
  | nil => rfl
  | cons op ops ih => rw [transcript_cons, List.map_cons, ih]

/-- The operations that succeeded are those that were run without some. -/
theorem successes_sublist (ops : List Operation) (w : ω) :
    ((successes (engine.transcript ops w).1).map Prod.fst).Sublist ops := by
  have hkept : (successes (engine.transcript ops w).1).Sublist (engine.transcript ops w).1 :=
    List.filter_sublist
  have hfst := hkept.map Prod.fst
  rwa [map_fst_transcript] at hfst

/-- The operations that succeeded, run alone, succeed as they did and end where all of them ended. -/
theorem transcript_successes (h : engine.IsTraceless) (ops : List Operation) (w : ω) :
    engine.transcript ((successes (engine.transcript ops w).1).map Prod.fst) w =
      (successes (engine.transcript ops w).1, (engine.transcript ops w).2) := by
  induction ops generalizing w with
  | nil => rfl
  | cons op ops ih =>
    rw [transcript_cons]
    cases houtcome : (engine op w).1 with
    | error fault =>
      -- The failed operation drops out, and the next one finds the state that it found.
      rw [h op w fault houtcome]
      exact ih w
    | ok a =>
      have hkept : successes ((op, .ok a) :: (engine.transcript ops (engine op w).2).1) =
          (op, .ok a) :: successes (engine.transcript ops (engine op w).2).1 := rfl
      rw [hkept, List.map_cons, transcript_cons, ih, houtcome]

end Engine

namespace Store

theorem engine_isTraceless : engine.IsTraceless := by
  intro op s fault h
  rcases engine_cases op s with ⟨fault, heq⟩ | ⟨a, s', heq, -⟩
  · rw [heq]
  · rw [heq] at h
    cases h

/-- Whatever operations are carried out on whatever store, an empty one of any capacity among them, those
that failed could have been left out: the others would have had the same outcomes, and the store would be
the same at the end.  This holds of the engine that works in place and of the one that yields a new store or
none, which agree on all outcomes. -/
theorem failures_leave_no_trace (ops : List Operation) (s : Store) :
    let whole := inPlace.transcript ops s
    let kept := Engine.successes whole.1
    (kept.map Prod.fst).Sublist ops ∧
      inPlace.transcript (kept.map Prod.fst) s = (kept, whole.2) ∧
      engine.transcript ops s = whole ∧
      engine.transcript (kept.map Prod.fst) s = (kept, whole.2) := by
  rw [inPlace_eq_engine]
  have hkept := engine.transcript_successes engine_isTraceless ops s
  exact ⟨engine.successes_sublist ops s, hkept, rfl, hkept⟩

/-- A creation that is refused, a write without space and one beyond the end of its extent. -/
example :
    (engine.transcript
      [.command .offlineDataPartition 7, .createExtent 7 1, .write 7 1 0 ⟨#[1, 2, 3]⟩,
        .write 7 1 0 ⟨#[1]⟩, .write 7 1 2 ⟨#[]⟩, .read 7 1 0 1] (empty 2)).1.map (·.2.isOk) =
      [false, true, false, true, false, true] := by
  decide +kernel

end Store

end ReplicaChain.Extent
