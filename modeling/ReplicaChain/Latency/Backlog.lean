/-!
# Backlogs

What waits for its turn joins at the back of a backlog and leaves at its front.  The front is kept in
order and the back in reverse, and the size is counted, so that neither joining nor leaving takes
longer when more elements wait.  `toList` gives the elements in the order in which they leave, and
each operation is described by what it does to that list.
-/

namespace ReplicaChain.Latency

/-- Elements in the order of their arrival. -/
structure Backlog (α : Type) where
  front : List α
  /-- The elements that joined after those of `front`, the latest first. -/
  back : List α
  size : Nat
  size_eq : size = front.length + back.length

namespace Backlog

variable {α : Type}

def empty : Backlog α :=
  ⟨[], [], 0, rfl⟩

def toList (q : Backlog α) : List α :=
  q.front ++ q.back.reverse

def push (a : α) (q : Backlog α) : Backlog α :=
  ⟨q.front, a :: q.back, q.size + 1, by simp [q.size_eq, Nat.add_assoc]⟩

/-- The element whose turn it is leaves.  Once the front is used up, the back takes its place. -/
def pop? : Backlog α → Option (α × Backlog α)
  | ⟨a :: front, back, size, h⟩ =>
    some (a, ⟨front, back, size - 1, by simp only [h, List.length_cons]; omega⟩)
  | ⟨[], back, size, h⟩ =>
    match hb : back.reverse with
    | [] => none
    | a :: front =>
      some (a, ⟨front, [], size - 1, by
        have := congrArg List.length hb
        simp_all⟩)

/-! ## Laws -/

@[simp] theorem toList_empty : (empty : Backlog α).toList = [] :=
  rfl

@[simp] theorem toList_push (a : α) (q : Backlog α) : (q.push a).toList = q.toList ++ [a] := by
  simp [toList, push]

/-- The count agrees with the elements. -/
theorem size_eq_length (q : Backlog α) : q.size = q.toList.length := by
  simp [toList, q.size_eq]

/-- Nobody leaves exactly when nobody waits. -/
theorem pop?_eq_none_iff {q : Backlog α} : q.pop? = none ↔ q.toList = [] := by
  obtain ⟨front, back, size, h⟩ := q
  cases front with
  | cons a front => simp [pop?, toList]
  | nil =>
    simp only [pop?, toList, List.nil_append]
    split <;> simp_all

/-- The element that leaves is the first of the list. -/
theorem toList_of_pop? {q rest : Backlog α} {a : α} (h : q.pop? = some (a, rest)) :
    q.toList = a :: rest.toList := by
  obtain ⟨front, back, size, hs⟩ := q
  cases front with
  | cons b front =>
    obtain ⟨rfl, rfl⟩ := by simpa [pop?] using h
    rfl
  | nil =>
    simp only [pop?] at h
    split at h
    · simp at h
    · rename_i b front hb
      obtain ⟨rfl, rfl⟩ := by simpa using h
      simp [toList, hb]

end Backlog

end ReplicaChain.Latency
