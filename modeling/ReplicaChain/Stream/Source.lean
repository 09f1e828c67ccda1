import ReplicaChain.Bytes.Slice
import ReplicaChain.Fault

/-!
# Incoming streams

A source is what a stream will deliver: its bytes, cut into the pieces in which they arrive, and the
way in which it ends.  Reading asks for an exact number of bytes and gathers them across pieces, so
the cuts never show in what is read.  A read that the stream cannot satisfy uses up everything left
and fails as the stream ends.
-/

namespace ReplicaChain

inductive Ending where
  /-- The peer closed the stream. -/
  | closed
  /-- The stream failed. -/
  | failed (fault : IoFault)
  /-- Nothing more arrives and the reader gives up at its deadline. -/
  | silent
  deriving DecidableEq, Repr

/-- The fault of a read that runs into the end of a stream. -/
def Ending.fault : Ending → Fault
  | closed => .io ⟨.unexpectedEof, "early eof"⟩
  | failed fault => .io fault
  | silent => .timedOut "packet read deadline exceeded"

/-- The rest of an incoming stream. -/
structure Source where
  pieces : List ByteArray
  ending : Ending

namespace Source

/-- A stream that delivers its bytes in one piece and is then closed. -/
def ofBytes (b : ByteArray) : Source :=
  ⟨[b], .closed⟩

def join (pieces : List ByteArray) : ByteArray :=
  pieces.foldl (· ++ ·) ByteArray.empty

def bytes (s : Source) : ByteArray :=
  join s.pieces

def size (s : Source) : Nat :=
  Bytes.totalSize s.pieces

def exhausted (s : Source) : Source :=
  { s with pieces := [] }

/-- Takes exactly `n` bytes off the front of the pieces and appends them to `read`. -/
def gather (n : Nat) (read : ByteArray) : List ByteArray → Option (ByteArray × List ByteArray)
  | [] => if n = 0 then some (read, []) else none
  | piece :: rest =>
    if n = 0 then some (read, piece :: rest)
    else if n < piece.size then some (read ++ Bytes.take n piece, Bytes.drop n piece :: rest)
    else gather (n - piece.size) (read ++ piece) rest

def read (n : Nat) (s : Source) : Except Fault ByteArray × Source :=
  match gather n ByteArray.empty s.pieces with
  | some (b, rest) => (.ok b, { s with pieces := rest })
  | none => (.error s.ending.fault, s.exhausted)

theorem size_gather {n : Nat} {read b : ByteArray} {pieces rest : List ByteArray}
    (h : gather n read pieces = some (b, rest)) :
    b.size = read.size + n ∧
      Bytes.totalSize rest + n = Bytes.totalSize pieces := by
  induction pieces generalizing n read with
  | nil =>
    simp only [gather] at h
    split at h <;> simp_all
  | cons piece pieces ih =>
    simp only [gather] at h
    split at h
    · simp_all
    · split at h
      · obtain ⟨rfl, rfl⟩ := by simpa using h
        simp
        omega
      · have := ih h
        simp at this ⊢
        omega

/-- A successful read delivers the bytes asked for and leaves that many fewer. -/
theorem size_of_read {n : Nat} {s rest : Source} {b : ByteArray}
    (h : s.read n = (.ok b, rest)) : b.size = n ∧ rest.size + n = s.size := by
  unfold read at h
  split at h
  · rename_i hg
    obtain ⟨rfl, rfl⟩ := by simpa using h
    simpa [size] using size_gather hg
  · simp at h

end Source

end ReplicaChain
