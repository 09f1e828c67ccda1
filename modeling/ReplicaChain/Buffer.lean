import ReplicaChain.Bytes.Slice

/-!
# Loaned buffers

Headers and full data blocks are read into buffers that are lent by a pool and come back when their
holder is done.  The pool keeps one free list for each of the two sizes.  A loan never fails: when
the list is empty a fresh buffer is made, and it joins the list on its return.  A list never grows
beyond its capacity; a buffer returned to a full list is dropped.

A buffer remembers the shelf it belongs to, and one that was made outside the pool belongs to none.
Whatever earlier holders did to a buffer, a loan is zeroed and has exactly the size of its shelf.
-/

namespace ReplicaChain

/-! ## Buffers -/

/-- The two kinds of buffers that the pool lends. -/
inductive Shelf where
  | header
  | block
  deriving DecidableEq, Repr

def blockSize : Nat :=
  131072

def Shelf.bufferSize : Shelf → Nat
  | header => 65
  | block => blockSize

/-- Bytes in the hands of one holder, with the shelf to which they return. -/
structure Buffer where
  bytes : ByteArray
  home : Option Shelf
  deriving DecidableEq

namespace Buffer

def detached (bytes : ByteArray) : Buffer :=
  ⟨bytes, none⟩

/-- A detached buffer of `n` zero bytes. -/
def zeroed (n : Nat) : Buffer :=
  detached (Bytes.zeros n)

def empty : Buffer :=
  detached ByteArray.empty

def size (b : Buffer) : Nat :=
  b.bytes.size

def isPooled (b : Buffer) : Bool :=
  b.home.isSome

def resize (n : Nat) (b : Buffer) : Buffer :=
  { b with bytes := Bytes.resize n b.bytes }

def fill (bytes : ByteArray) (b : Buffer) : Buffer :=
  { b with bytes }

/-- Puts bytes at the front of a buffer, over those that it held there. -/
def receive (bytes : ByteArray) (b : Buffer) : Buffer :=
  b.fill (Bytes.overwrite 0 bytes b.bytes)

/-- Nothing of what a buffer held shows once it has received as many bytes as it holds. -/
theorem receive_of_size_eq {bytes : ByteArray} {b : Buffer} (h : bytes.size = b.size) :
    b.receive bytes = b.fill bytes := by
  rw [receive, Bytes.overwrite_of_size_eq h]

def describe (b : Buffer) : String :=
  "PooledBuffer \x7b len: " ++ toString b.size ++ ", pooled: " ++
    (if b.isPooled then "true" else "false") ++ " \x7d"

end Buffer

/-! ## Free lists -/

/-- The buffers of one shelf that are not on loan, the next to be lent first. -/
structure FreeList where
  buffers : List ByteArray
  capacity : Nat

namespace FreeList

/-- A list that starts with `count` buffers and has room for as many, but for at least one. -/
def filled (count size : Nat) : FreeList :=
  ⟨List.replicate count (Bytes.zeros size), max count 1⟩

def available (l : FreeList) : Nat :=
  l.buffers.length

/-- Lends the next free buffer, or a fresh one when none is free.  It is emptied first and then grown
to `size` zero bytes. -/
def lend (size : Nat) (l : FreeList) : ByteArray × FreeList :=
  let bytes := l.buffers.headD .empty
  (Bytes.resize size (Bytes.take 0 bytes), { l with buffers := l.buffers.tail })

/-- Whatever a buffer was used for before, it is lent with nothing but zeros in it. -/
theorem bytes_lend (size : Nat) (l : FreeList) : (l.lend size).1 = Bytes.zeros size := by
  rw [lend, Bytes.take_zero, Bytes.resize_empty]

@[simp]
theorem available_lend (size : Nat) (l : FreeList) :
    (l.lend size).2.available = l.available - 1 :=
  List.length_tail

/-- Takes a buffer back, unless the list is full. -/
def takeBack (bytes : ByteArray) (l : FreeList) : FreeList :=
  if l.buffers.length < l.capacity then { l with buffers := l.buffers ++ [bytes] } else l

@[simp]
theorem capacity_takeBack (bytes : ByteArray) (l : FreeList) :
    (l.takeBack bytes).capacity = l.capacity := by
  unfold takeBack
  split <;> rfl

theorem available_takeBack (bytes : ByteArray) (l : FreeList) :
    (l.takeBack bytes).available =
      if l.available < l.capacity then l.available + 1 else l.available := by
  unfold takeBack available
  split
  · exact List.length_append
  · rfl

end FreeList

/-! ## The pool -/

/-- The free lists of both shelves. -/
structure BufferPool where
  headers : FreeList
  blocks : FreeList

namespace BufferPool

def filled (headers blocks : Nat) : BufferPool :=
  ⟨.filled headers Shelf.header.bufferSize, .filled blocks Shelf.block.bufferSize⟩

/-- The pool that is made when nothing else is asked for. -/
def standard : BufferPool :=
  filled 1024 64

def shelf (s : Shelf) (p : BufferPool) : FreeList :=
  match s with
  | .header => p.headers
  | .block => p.blocks

def setShelf (s : Shelf) (l : FreeList) (p : BufferPool) : BufferPool :=
  match s with
  | .header => { p with headers := l }
  | .block => { p with blocks := l }

@[simp]
theorem shelf_setShelf (s s' : Shelf) (l : FreeList) (p : BufferPool) :
    (p.setShelf s l).shelf s' = if s = s' then l else p.shelf s' := by
  cases s <;> cases s' <;> rfl

def available (s : Shelf) (p : BufferPool) : Nat :=
  (p.shelf s).available

def lend (s : Shelf) (p : BufferPool) : Buffer × BufferPool :=
  let lent := (p.shelf s).lend s.bufferSize
  (⟨lent.1, some s⟩, p.setShelf s lent.2)

theorem shelf_lend (s s' : Shelf) (p : BufferPool) :
    (p.lend s).2.shelf s' = if s = s' then ((p.shelf s).lend s.bufferSize).2 else p.shelf s' :=
  shelf_setShelf _ _ _ _

theorem bytes_lend (s : Shelf) (p : BufferPool) :
    (p.lend s).1.bytes = Bytes.zeros s.bufferSize :=
  FreeList.bytes_lend _ _

theorem size_lend (s : Shelf) (p : BufferPool) : (p.lend s).1.size = s.bufferSize := by
  rw [Buffer.size, bytes_lend, Bytes.size_zeros]

/-- Takes back a buffer whose holder is done with it.  A detached buffer just disappears. -/
def release (b : Buffer) (p : BufferPool) : BufferPool :=
  match b.home with
  | some s => p.setShelf s ((p.shelf s).takeBack b.bytes)
  | none => p

theorem shelf_release (b : Buffer) (p : BufferPool) (s : Shelf) :
    (p.release b).shelf s =
      if b.home = some s then (p.shelf s).takeBack b.bytes else p.shelf s := by
  rcases hb : b.home with _ | s'
  · simp [release, hb]
  · rw [release, hb]
    simp only [shelf_setShelf, Option.some.injEq]
    split
    · rename_i h
      rw [h]
    · rfl

end BufferPool

end ReplicaChain
