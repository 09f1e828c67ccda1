/-!
# Readers

A reader takes characters from the front of a text and returns what they mean together with the
text that is left, or refuses.  A reader that refuses takes nothing.
-/

namespace ReplicaChain.Text

/-- Reads a value from the front of a text. -/
abbrev Reader (α : Type) := List Char → Option (α × List Char)

namespace Reader

variable {α : Type}

/-- Reads as often as `step` accepts, at most once for each character of `bound`, after the values
in `read`, which stand in reverse. -/
def collect (step : Reader α) :
    (bound : List Char) → List Char → (read : List α) → List α × List Char
  | [], cs, read => (read.reverse, cs)
  | _ :: bound, cs, read =>
    match step cs with
    | none => (read.reverse, cs)
    | some (a, rest) => collect step bound rest (a :: read)

/-- Reads as often as `step` accepts, at most once for each character of `bound`. -/
def atMost (step : Reader α) (bound cs : List Char) : List α × List Char :=
  collect step bound cs []

/-- Reads as often as `step` accepts.  A step that takes a character can be repeated at most once
for each character of the text, so that the text is its own bound. -/
def many (step : Reader α) (cs : List Char) : List α × List Char :=
  atMost step cs cs

def word : (w : List Char) → List Char → Option (List Char)
  | [], cs => some cs
  | _ :: _, [] => none
  | w :: ws, c :: cs => if w = c then word ws cs else none

def optionalWord (w cs : List Char) : List Char :=
  (word w cs).getD cs

def run (accepts : Char → Bool) : Reader (List Char) := fun cs ↦
  if (cs.takeWhile accepts).isEmpty then none
  else some (cs.takeWhile accepts, cs.dropWhile accepts)

def exactly (n : Nat) (accepts : Char → Bool) : Reader (List Char) := fun cs ↦
  if (cs.take n).length = n && (cs.take n).all accepts then some (cs.take n, cs.drop n) else none

def separated (mark : Char) (item : Reader α) : Reader (List α) := fun cs ↦ do
  let (first, rest) ← item cs
  let (more, rest) := many (fun cs ↦ do item (← word [mark] cs)) rest
  some (first :: more, rest)

/-! ## Laws -/

/-- What was read before stands in front of what is read. -/
theorem collect_eq (step : Reader α) (bound cs : List Char) (read : List α) :
    collect step bound cs read =
      (read.reverse ++ (atMost step bound cs).1, (atMost step bound cs).2) := by
  induction bound generalizing cs read with
  | nil => simp [collect, atMost]
  | cons b bound ih =>
    simp only [atMost, collect]
    split
    · simp
    · rename_i a rest _
      rw [ih rest (a :: read), ih rest [a]]
      simp

@[simp] theorem atMost_nil (step : Reader α) (cs : List Char) : atMost step [] cs = ([], cs) :=
  rfl

/-- One more repetition is a step and the repetitions after it. -/
theorem atMost_cons (step : Reader α) (b : Char) (bound cs : List Char) :
    atMost step (b :: bound) cs =
      match step cs with
      | none => ([], cs)
      | some (a, rest) => (a :: (atMost step bound rest).1, (atMost step bound rest).2) := by
  rw [atMost, collect]
  split
  · simp_all
  · rename_i a rest h
    simp [collect_eq step bound rest [a]]

end Reader

end ReplicaChain.Text
