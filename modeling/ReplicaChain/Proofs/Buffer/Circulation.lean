import Mathlib.Data.List.Basic
import ReplicaChain.Buffer

/-!
# Buffers in circulation

Holders of buffers fill them, cut them, put others in their place and drop them in any order, and some
of their buffers never came from the pool.  The pool sees nothing of this but loans and returns.  What it
lends is blank all the same, and each of its lists stays within bounds: a buffer that is dropped goes
where it came from, so a list can only be short of buffers that are still held.
-/

namespace ReplicaChain.BufferPool

/-! ## Holders -/

inductive Making where
  | lent (s : Shelf)
  | detached (bytes : ByteArray)

def Making.origin : Making → Option Shelf
  | lent s => some s
  | detached _ => none

/-- What is done with buffers.  They are numbered in the order in which they are made. -/
inductive Handover where
  | make (m : Making)
  /-- The holder puts other bytes in the buffer. -/
  | fill (i : Nat) (bytes : ByteArray)
  | resize (i n : Nat)
  /-- A new buffer takes the place of another, which is dropped. -/
  | replace (i : Nat) (m : Making)
  | drop (i : Nat)

namespace Handover

def making? : Handover → Option Making
  | make m | replace _ m => some m
  | fill _ _ | resize _ _ | drop _ => none

/-- Where the buffers come from that are made one after another. -/
def origins (handovers : List Handover) : List (Option Shelf) :=
  handovers.filterMap fun h ↦ h.making?.map Making.origin

/-- Nothing is made, changed or dropped but detached buffers. -/
def IsDetached (origins : List (Option Shelf)) : Handover → Prop
  | make m => m.origin = none
  | fill i _ | resize i _ | drop i => origins[i]? = some none
  | replace i m => m.origin = none ∧ origins[i]? = some none

end Handover

/-- A pool and the buffers that were made, each of them until it is dropped. -/
structure Circulation where
  pool : BufferPool
  made : List (Option Buffer)

namespace Circulation

def start (configured : Shelf → Nat) : Circulation :=
  ⟨.filled (configured .header) (configured .block), []⟩

def held (i : Nat) (c : Circulation) : Option Buffer :=
  c.made[i]?.join

/-- How many buffers are held that belong to a shelf. -/
def outstanding (s : Shelf) (c : Circulation) : Nat :=
  c.made.countP fun b ↦ b.bind Buffer.home = some s

def make (m : Making) (c : Circulation) : Circulation :=
  match m with
  | .lent s => ⟨(c.pool.lend s).2, c.made ++ [some (c.pool.lend s).1]⟩
  | .detached bytes => { c with made := c.made ++ [some (.detached bytes)] }

def change (f : Buffer → Buffer) (i : Nat) (c : Circulation) : Circulation :=
  match c.held i with
  | some b => { c with made := c.made.set i (some (f b)) }
  | none => c

def drop (i : Nat) (c : Circulation) : Circulation :=
  match c.held i with
  | some b => ⟨c.pool.release b, c.made.set i none⟩
  | none => c

def step (c : Circulation) : Handover → Circulation
  | .make m => c.make m
  | .fill i bytes => c.change (.fill bytes) i
  | .resize i n => c.change (.resize n) i
  | .replace i m => (c.make m).drop i
  | .drop i => c.drop i

def run (handovers : List Handover) (c : Circulation) : Circulation :=
  handovers.foldl step c

variable {configured : Shelf → Nat} {origins : List (Option Shelf)} {c : Circulation} {b : Buffer}
  {i : Nat} {s : Shelf}

/-! ## What is held -/

theorem getElem?_of_held (h : c.held i = some b) : c.made[i]? = some (some b) :=
  Option.join_eq_some_iff.mp h

/-- The number of buffers held of a shelf after one of them was changed or dropped. -/
theorem countP_set_of_held (p : Option Buffer → Bool) (h : c.held i = some b) (x : Option Buffer) :
    (c.made.set i x).countP p + (if p (some b) then 1 else 0) =
      c.made.countP p + if p x then 1 else 0 := by
  obtain ⟨hlt, hi⟩ := List.getElem?_eq_some_iff.mp (getElem?_of_held h)
  have hpos : (if p (some b) then 1 else 0) ≤ c.made.countP p := by
    split
    · rename_i hb
      exact List.countP_pos_iff.mpr ⟨some b, hi ▸ List.getElem_mem hlt, hb⟩
    · exact Nat.zero_le _
  rw [List.countP_set hlt, hi]
  omega

theorem outstanding_make (m : Making) (s : Shelf) :
    (c.make m).outstanding s = c.outstanding s + if m.origin = some s then 1 else 0 := by
  cases m <;> simp [make, outstanding, Making.origin, BufferPool.lend, Buffer.detached]

theorem outstanding_drop (h : c.held i = some b) (s : Shelf) :
    (c.drop i).outstanding s + (if b.home = some s then 1 else 0) = c.outstanding s := by
  have hcount := countP_set_of_held (fun x ↦ x.bind Buffer.home = some s) h none
  simpa [drop, h, outstanding] using hcount

theorem outstanding_change (f : Buffer → Buffer) (h : c.held i = some b) (hf : (f b).home = b.home)
    (s : Shelf) : (c.change f i).outstanding s = c.outstanding s := by
  have hcount := countP_set_of_held (fun x ↦ x.bind Buffer.home = some s) h (some (f b))
  simpa [change, h, outstanding, hf] using hcount

/-! ## The pool -/

theorem pool_change (f : Buffer → Buffer) (i : Nat) (c : Circulation) :
    (c.change f i).pool = c.pool := by
  unfold change
  split <;> rfl

theorem capacity_make (m : Making) (s : Shelf) :
    ((c.make m).pool.shelf s).capacity = (c.pool.shelf s).capacity := by
  cases m with
  | lent s' =>
    simp only [make, BufferPool.shelf_lend]
    split
    · rename_i h
      rw [← h]
      rfl
    · rfl
  | detached bytes => rfl

theorem available_make (m : Making) (s : Shelf) :
    (c.make m).pool.available s =
      c.pool.available s - if m.origin = some s then 1 else 0 := by
  cases m with
  | lent s' =>
    simp only [make, Making.origin, BufferPool.available, BufferPool.shelf_lend, Option.some.injEq]
    split
    · rename_i h
      rw [← h, FreeList.available_lend]
    · rfl
  | detached bytes => rfl

/-- A buffer that is dropped goes to the list of its shelf, and all other lists stay as they are. -/
theorem shelf_drop (h : c.held i = some b) (s : Shelf) :
    (c.drop i).pool.shelf s =
      if b.home = some s then (c.pool.shelf s).takeBack b.bytes else c.pool.shelf s := by
  rw [drop, h]
  exact BufferPool.shelf_release b c.pool s

theorem capacity_drop (i : Nat) (s : Shelf) :
    ((c.drop i).pool.shelf s).capacity = (c.pool.shelf s).capacity := by
  rcases h : c.held i with _ | b
  · rw [drop, h]
  · rw [shelf_drop h]
    split <;> simp

theorem available_drop (h : c.held i = some b) (s : Shelf) :
    (c.drop i).pool.available s =
      if b.home = some s ∧ c.pool.available s < (c.pool.shelf s).capacity then
        c.pool.available s + 1
      else c.pool.available s := by
  have hshelf := shelf_drop h s
  rw [BufferPool.available, hshelf]
  by_cases hb : b.home = some s
  · rw [if_pos hb, FreeList.available_takeBack]
    simp only [hb, true_and]
    rfl
  · simp only [hb, if_false, false_and]
    rfl

/-! ## The balance -/

/-- Every list is within its bounds, together with what is held of it there are as many buffers as were
put there, and every buffer that is held belongs where it came from. -/
structure Balanced (configured : Shelf → Nat) (origins : List (Option Shelf)) (c : Circulation) :
    Prop where
  capacity_eq : ∀ s, (c.pool.shelf s).capacity = max (configured s) 1
  available_le : ∀ s, c.pool.available s ≤ max (configured s) 1
  le_total : ∀ s, configured s ≤ c.pool.available s + c.outstanding s
  length_eq : c.made.length = origins.length
  home_eq : ∀ i b, c.held i = some b → origins[i]? = some b.home

theorem available_start (configured : Shelf → Nat) (s : Shelf) :
    (start configured).pool.available s = configured s := by
  cases s <;> exact List.length_replicate

theorem balanced_start (configured : Shelf → Nat) :
    (start configured).Balanced configured [] := by
  refine ⟨fun s ↦ by cases s <;> rfl, fun s ↦ ?_, fun s ↦ ?_, rfl, fun i b h ↦ ?_⟩
  · rw [available_start]
    exact Nat.le_max_left _ _
  · rw [available_start]
    exact Nat.le_add_right _ _
  · simp [held, start] at h

theorem Balanced.make (h : c.Balanced configured origins) (m : Making) :
    (c.make m).Balanced configured (origins ++ [m.origin]) := by
  refine ⟨fun s ↦ ?_, fun s ↦ ?_, fun s ↦ ?_, ?_, fun i b hb ↦ ?_⟩
  · rw [capacity_make, h.capacity_eq]
  · have hle := h.available_le s
    rw [available_make]
    omega
  · have hle := h.le_total s
    rw [available_make, outstanding_make]
    split <;> omega
  · cases m <;> simp [Circulation.make, h.length_eq]
  · have hlength := h.length_eq
    have hmade := getElem?_of_held hb
    have hlast : ∃ b', (c.make m).made = c.made ++ [some b'] ∧ b'.home = m.origin := by
      cases m <;> exact ⟨_, rfl, rfl⟩
    obtain ⟨b', happend, hhome⟩ := hlast
    rw [happend] at hmade
    by_cases hi : i < c.made.length
    · rw [List.getElem?_append_left hi] at hmade
      rw [List.getElem?_append_left (hlength ▸ hi)]
      exact h.home_eq i b (Option.join_eq_some_iff.mpr hmade)
    · have hlt := (List.getElem?_eq_some_iff.mp hmade).1
      obtain rfl : i = c.made.length := by
        simp only [List.length_append, List.length_singleton] at hlt
        omega
      rw [List.getElem?_concat_length] at hmade
      obtain rfl := Option.some.inj (Option.some.inj hmade)
      rw [hlength, List.getElem?_concat_length, hhome]

/-- What is still held of the buffers after one of them was changed or dropped is as it was before. -/
theorem held_of_set {j : Nat} {x : Option Buffer} {pool : BufferPool}
    (h : (⟨pool, c.made.set i x⟩ : Circulation).held j = some b) :
    i = j ∧ x = some b ∨ i ≠ j ∧ c.held j = some b := by
  have hmade := getElem?_of_held h
  rw [List.getElem?_set] at hmade
  by_cases hij : i = j
  · rw [if_pos hij] at hmade
    split at hmade
    · exact .inl ⟨hij, Option.some.inj hmade⟩
    · cases hmade
  · rw [if_neg hij] at hmade
    exact .inr ⟨hij, Option.join_eq_some_iff.mpr hmade⟩

theorem Balanced.change (h : c.Balanced configured origins) {f : Buffer → Buffer}
    (hf : ∀ b, (f b).home = b.home) (i : Nat) : (c.change f i).Balanced configured origins := by
  rcases hb : c.held i with _ | b
  · rwa [Circulation.change, hb]
  have hpool := pool_change f i c
  refine ⟨fun s ↦ ?_, fun s ↦ ?_, fun s ↦ ?_, ?_, fun j b' hb' ↦ ?_⟩
  · rw [hpool, h.capacity_eq]
  · rw [hpool]
    exact h.available_le s
  · rw [hpool, outstanding_change f hb (hf b)]
    exact h.le_total s
  · rw [Circulation.change, hb]
    exact List.length_set.trans h.length_eq
  · rw [Circulation.change, hb] at hb'
    rcases held_of_set hb' with ⟨rfl, hnew⟩ | ⟨-, hold⟩
    · rw [← Option.some.inj hnew, hf]
      exact h.home_eq i b hb
    · exact h.home_eq j b' hold

theorem Balanced.drop (h : c.Balanced configured origins) (i : Nat) :
    (c.drop i).Balanced configured origins := by
  rcases hb : c.held i with _ | b
  · rwa [Circulation.drop, hb]
  refine ⟨fun s ↦ ?_, fun s ↦ ?_, fun s ↦ ?_, ?_, fun j b' hb' ↦ ?_⟩
  · rw [capacity_drop, h.capacity_eq]
  · have hle := h.available_le s
    rw [available_drop hb, h.capacity_eq]
    split <;> omega
  · -- A buffer is lost only when its list is full, and a full list is not short of any.
    have hle := h.le_total s
    have hcount := outstanding_drop hb s
    rw [available_drop hb, h.capacity_eq]
    by_cases hhome : b.home = some s
    · simp only [hhome, if_true, true_and] at hcount ⊢
      split <;> omega
    · simp only [hhome, if_false, false_and] at hcount ⊢
      omega
  · rw [Circulation.drop, hb]
    exact List.length_set.trans h.length_eq
  · rw [Circulation.drop, hb] at hb'
    rcases held_of_set hb' with ⟨-, hnew⟩ | ⟨-, hold⟩
    · cases hnew
    · exact h.home_eq j b' hold

theorem Balanced.step (h : c.Balanced configured origins) (m : Handover) :
    (c.step m).Balanced configured (origins ++ Handover.origins [m]) := by
  have hnone {c' : Circulation} (h' : c'.Balanced configured origins) :
      c'.Balanced configured (origins ++ []) := by rwa [List.append_nil]
  cases m with
  | make m => exact h.make m
  | fill i bytes => exact hnone (h.change (f := .fill bytes) (fun _ ↦ rfl) i)
  | resize i n => exact hnone (h.change (f := .resize n) (fun _ ↦ rfl) i)
  | replace i m => exact (h.make m).drop i
  | drop i => exact hnone (h.drop i)

theorem Balanced.run (h : c.Balanced configured origins) (handovers : List Handover) :
    (c.run handovers).Balanced configured (origins ++ Handover.origins handovers) := by
  induction handovers generalizing c origins with
  | nil =>
    rw [show Handover.origins [] = [] from rfl, List.append_nil]
    exact h
  | cons m handovers ih =>
    have hsplit : Handover.origins (m :: handovers) =
        Handover.origins [m] ++ Handover.origins handovers :=
      List.filterMap_append (l := [m])
    rw [hsplit, ← List.append_assoc]
    exact ih (h.step m)

/-- Dropping a detached buffer does not concern the pool. -/
theorem Balanced.pool_drop (h : c.Balanced configured origins) (hi : origins[i]? = some none) :
    (c.drop i).pool = c.pool := by
  rcases hb : c.held i with _ | b
  · rw [Circulation.drop, hb]
  · have hhome : b.home = none := Option.some.inj ((h.home_eq i b hb).symm.trans hi)
    rw [Circulation.drop, hb]
    simp only [BufferPool.release, hhome]

theorem pool_make_of_detached {m : Making} (hm : m.origin = none) : (c.make m).pool = c.pool := by
  cases m with
  | lent s => cases hm
  | detached bytes => rfl

theorem Balanced.pool_step (h : c.Balanced configured origins) {m : Handover}
    (hm : m.IsDetached origins) : (c.step m).pool = c.pool := by
  cases m with
  | make m => exact pool_make_of_detached hm
  | fill i bytes => exact pool_change _ i c
  | resize i n => exact pool_change _ i c
  | replace i m =>
    obtain ⟨hlt, -⟩ := List.getElem?_eq_some_iff.mp hm.2
    have hi : (origins ++ [m.origin])[i]? = some none := by
      rw [List.getElem?_append_left hlt, hm.2]
    exact ((h.make m).pool_drop hi).trans (pool_make_of_detached hm.1)
  | drop i => exact h.pool_drop hm

/-- Whatever is done with any number of buffers, a loan has the size of its shelf and nothing but zeros in
it.  No list has more free buffers than were put there at first, or than one if none were, and together
with those that are held there are never fewer.  A buffer belongs where it came from, so dropping it
gives it back to that list and to no other, and detached buffers are of no concern to the pool. -/
theorem circulation_balanced (configured : Shelf → Nat) (handovers : List Handover) :
    let c := (start configured).run handovers
    let origins := Handover.origins handovers
    (∀ s, (c.pool.lend s).1.size = s.bufferSize ∧
      ∀ byte ∈ (c.pool.lend s).1.bytes.data, byte = 0) ∧
    (∀ s, c.pool.available s ≤ max (configured s) 1) ∧
    (∀ s, configured s ≤ c.pool.available s + c.outstanding s) ∧
    (∀ i b, c.held i = some b → origins[i]? = some b.home ∧
      ∀ s, (c.drop i).pool.shelf s =
        if origins[i]? = some (some s) then (c.pool.shelf s).takeBack b.bytes
        else c.pool.shelf s) ∧
    ∀ m : Handover, m.IsDetached origins → (c.step m).pool = c.pool := by
  intro c origins
  have h : c.Balanced configured origins := (balanced_start configured).run handovers
  refine ⟨fun s ↦ ⟨BufferPool.size_lend s c.pool, fun byte hbyte ↦ ?_⟩, h.available_le, h.le_total,
    fun i b hb ↦ ⟨h.home_eq i b hb, fun s ↦ ?_⟩, fun m ↦ h.pool_step⟩
  · rw [BufferPool.bytes_lend] at hbyte
    exact (Array.mem_replicate.mp hbyte).2
  · simp only [h.home_eq i b hb, shelf_drop hb, Option.some.injEq]

/-- A block that was made because none was free is kept when it comes back first, and the one that was
lent before it finds the list full. -/
example : ((start fun _ ↦ 1).run [.make (.lent .block), .make (.lent .block), .drop 1,
    .drop 0]).pool.available .block = 1 := by decide

end Circulation

end ReplicaChain.BufferPool
