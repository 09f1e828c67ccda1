/-!
# Slices of byte strings

Frames, extents and buffers are `ByteArray`s.  This module names the few cuts that the library
makes of them and states each one through its size, so that no other module reasons about
`extract` bounds.
-/

namespace ReplicaChain.Bytes

/-- Byte strings are compared byte by byte. -/
instance (priority := high) instDecidableEqBytes : DecidableEq ByteArray :=
  ByteArray.instDecidableEq

def totalSize : List ByteArray → Nat
  | [] => 0
  | b :: bs => b.size + totalSize bs

@[simp]
theorem totalSize_nil : totalSize [] = 0 := rfl

@[simp]
theorem totalSize_cons (b : ByteArray) (bs : List ByteArray) :
    totalSize (b :: bs) = b.size + totalSize bs := rfl

/-- The first `n` bytes, or all of them when there are fewer. -/
def take (n : Nat) (b : ByteArray) : ByteArray :=
  b.extract 0 n

def drop (n : Nat) (b : ByteArray) : ByteArray :=
  b.extract n b.size

def zeros (n : Nat) : ByteArray :=
  ⟨Array.replicate n 0⟩

def resize (n : Nat) (b : ByteArray) : ByteArray :=
  if n ≤ b.size then take n b else b ++ zeros (n - b.size)

/-- Replaces the bytes from `offset` on by `data`, keeping what lies beyond its end. -/
def overwrite (offset : Nat) (data b : ByteArray) : ByteArray :=
  take offset b ++ data ++ drop (offset + data.size) b

def ofText (s : String) : ByteArray :=
  s.toUTF8

/-- Consecutive pieces of at most `n` bytes, the last of which may be shorter. -/
def pieces (n : Nat) (b : ByteArray) : List ByteArray :=
  if _h : n = 0 ∨ b.size = 0 then []
  else take n b :: pieces n (drop n b)
termination_by b.size
decreasing_by
  simp only [drop, ByteArray.size_extract]
  omega

@[simp]
theorem size_take (n : Nat) (b : ByteArray) : (take n b).size = min n b.size := by
  simp [take]

@[simp]
theorem size_drop (n : Nat) (b : ByteArray) : (drop n b).size = b.size - n := by
  simp [drop]

@[simp]
theorem size_zeros (n : Nat) : (zeros n).size = n := by
  simp [zeros, ByteArray.size]

@[simp]
theorem size_resize (n : Nat) (b : ByteArray) : (resize n b).size = n := by
  unfold resize
  split <;> simp <;> omega

/-- Nothing is lost or invented by cutting in two. -/
theorem take_append_drop (n : Nat) (b : ByteArray) : take n b ++ drop n b = b := by
  simp only [take, drop]
  rw [ByteArray.extract_append_extract]
  simp

@[simp]
theorem take_zero (b : ByteArray) : take 0 b = .empty := by
  apply ByteArray.size_eq_zero_iff.mp
  simp

theorem resize_empty (n : Nat) : resize n .empty = zeros n := by
  cases n with
  | zero => exact take_zero .empty
  | succ n => exact ByteArray.empty_append

/-- Bytes that are replaced by as many others are gone. -/
theorem overwrite_of_size_eq {data b : ByteArray} (h : data.size = b.size) :
    overwrite 0 data b = data := by
  have hdrop : drop (0 + data.size) b = .empty := by
    apply ByteArray.size_eq_zero_iff.mp
    rw [size_drop]
    omega
  rw [overwrite, take_zero, hdrop, ByteArray.empty_append, ByteArray.append_empty]

theorem size_overwrite {offset : Nat} {data b : ByteArray} (h : offset ≤ b.size) :
    (overwrite offset data b).size = max b.size (offset + data.size) := by
  simp only [overwrite, ByteArray.size_append, size_take, size_drop]
  omega

end ReplicaChain.Bytes
