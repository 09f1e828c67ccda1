import ReplicaChain.Stream.Source

/-!
# What a source delivers

Reading sees the bytes of a source and the way it ends, and nothing else: the cuts between its
pieces never show.  A successful read splits the bytes in two, and since a byte string splits in only
one way at a given length, every statement below follows from that one.
-/

namespace ReplicaChain

/-- A byte string that was put together comes apart again. -/
theorem Bytes.take_drop_append (a b : ByteArray) :
    take a.size (a ++ b) = a ∧ drop a.size (a ++ b) = b := by
  apply (ByteArray.append_eq_append_iff_of_size_eq_left _).mp (take_append_drop a.size (a ++ b))
  rw [size_take, ByteArray.size_append]
  exact Nat.min_eq_left (Nat.le_add_right _ _)

theorem Bytes.take_of_size_le {n : Nat} {b : ByteArray} (h : b.size ≤ n) : take n b = b := by
  have hdrop : drop n b = .empty := ByteArray.size_eq_zero_iff.mp (by simp; omega)
  have hb := take_append_drop n b
  rwa [hdrop, ByteArray.append_empty] at hb

theorem Bytes.take_append (n : Nat) (a b : ByteArray) :
    take n (a ++ b) = take n a ++ take (n - a.size) b := by
  simp only [take, ByteArray.extract_append, Nat.zero_sub]

namespace Source

/-! ## The bytes of a list of pieces -/

theorem foldl_append_eq (read : ByteArray) (pieces : List ByteArray) :
    pieces.foldl (· ++ ·) read = read ++ join pieces := by
  induction pieces generalizing read with
  | nil => simp [join]
  | cons piece pieces ih =>
    simp only [join, List.foldl_cons, ByteArray.empty_append]
    rw [ih, ih piece, ByteArray.append_assoc]

@[simp]
theorem join_nil : join [] = ByteArray.empty :=
  rfl

@[simp]
theorem join_cons (piece : ByteArray) (pieces : List ByteArray) :
    join (piece :: pieces) = piece ++ join pieces := by
  rw [join, List.foldl_cons, ByteArray.empty_append, foldl_append_eq]

theorem size_join (pieces : List ByteArray) :
    (join pieces).size = Bytes.totalSize pieces := by
  induction pieces with
  | nil => rfl
  | cons piece pieces ih => simp [ih]

theorem size_bytes (s : Source) : s.bytes.size = s.size :=
  size_join s.pieces

@[simp]
theorem bytes_ofBytes (b : ByteArray) : (ofBytes b).bytes = b := by
  simp [ofBytes, bytes]

@[simp]
theorem bytes_exhausted (s : Source) : s.exhausted.bytes = ByteArray.empty :=
  rfl

/-! ## One read -/

theorem join_of_gather {n : Nat} {read b : ByteArray} {pieces rest : List ByteArray}
    (h : gather n read pieces = some (b, rest)) : b ++ join rest = read ++ join pieces := by
  induction pieces generalizing n read with
  | nil =>
    simp only [gather] at h
    split at h <;> simp_all
  | cons piece pieces ih =>
    simp only [gather] at h
    split at h
    · simp_all
    · split at h
      · obtain ⟨rfl, rfl⟩ := by simpa using h
        calc
          _ = read ++ (Bytes.take n piece ++ Bytes.drop n piece ++ join pieces) := by
            simp only [join_cons, ByteArray.append_assoc]
          _ = _ := by rw [Bytes.take_append_drop, join_cons]
      · rw [ih h, join_cons, ByteArray.append_assoc]

theorem gather_isSome {n : Nat} (read : ByteArray) {pieces : List ByteArray}
    (h : n ≤ Bytes.totalSize pieces) : (gather n read pieces).isSome := by
  induction pieces generalizing n read with
  | nil => simp_all [gather]
  | cons piece pieces ih =>
    simp only [gather]
    split
    · rfl
    · split
      · rfl
      · apply ih (read ++ piece)
        rw [Bytes.totalSize_cons] at h
        omega

/-- A successful read splits the bytes of the source. -/
theorem bytes_of_read {n : Nat} {s rest : Source} {b : ByteArray}
    (h : s.read n = (.ok b, rest)) : s.bytes = b ++ rest.bytes ∧ rest.ending = s.ending := by
  unfold read at h
  split at h
  · rename_i hg
    obtain ⟨rfl, rfl⟩ := by simpa using h
    have hj := join_of_gather hg
    rw [ByteArray.empty_append] at hj
    exact ⟨hj.symm, rfl⟩
  · simp at h

/-- A read succeeds when there are enough bytes. -/
theorem exists_read {n : Nat} {s : Source} (h : n ≤ s.bytes.size) :
    ∃ b rest, s.read n = (.ok b, rest) := by
  rw [size_bytes] at h
  obtain ⟨⟨b, rest⟩, hg⟩ := Option.isSome_iff_exists.mp (gather_isSome .empty h)
  exact ⟨b, { s with pieces := rest }, by simp [read, hg]⟩

/-- A read takes off the front of the bytes just what was asked for. -/
theorem read_of_bytes {s : Source} {b t : ByteArray} (h : s.bytes = b ++ t) :
    ∃ rest, s.read b.size = (.ok b, rest) ∧ rest.bytes = t ∧ rest.ending = s.ending := by
  obtain ⟨b', rest, hr⟩ : ∃ b' rest, s.read b.size = (.ok b', rest) :=
    exists_read (by rw [h]; simp)
  obtain ⟨hsplit, hend⟩ := bytes_of_read hr
  rw [h] at hsplit
  obtain ⟨rfl, rfl⟩ :=
    (ByteArray.append_eq_append_iff_of_size_eq_left (size_of_read hr).1.symm).mp hsplit
  exact ⟨rest, hr, rfl, hend⟩

/-- A read for which there are too few bytes uses them up and fails as the stream ends. -/
theorem read_of_size_lt {n : Nat} {s : Source} (h : s.bytes.size < n) :
    s.read n = (.error s.ending.fault, s.exhausted) := by
  rw [size_bytes] at h
  unfold read
  split
  · rename_i hg
    have := (size_gather hg).2
    simp only [size] at h
    omega
  · rfl

/-- A read that fails found too few bytes. -/
theorem eq_of_read_error {n : Nat} {s rest : Source} {fault : Fault}
    (h : s.read n = (.error fault, rest)) :
    s.bytes.size < n ∧ fault = s.ending.fault ∧ rest = s.exhausted := by
  by_cases hs : s.bytes.size < n
  · rw [read_of_size_lt hs] at h
    simp_all
  · obtain ⟨b, r, hr⟩ := exists_read (Nat.le_of_not_lt hs)
    simp [hr] at h

/-- What is left of a source after something was taken off its front. -/
def LeftOf (s rest : Source) : Prop :=
  ∃ b, s.bytes = b ++ rest.bytes

theorem LeftOf.refl (s : Source) : s.LeftOf s :=
  ⟨.empty, by simp⟩

theorem LeftOf.trans {s s' rest : Source} (h : s.LeftOf s') (h' : s'.LeftOf rest) :
    s.LeftOf rest := by
  obtain ⟨b, hb⟩ := h
  obtain ⟨b', hb'⟩ := h'
  exact ⟨b ++ b', by rw [hb, hb', ByteArray.append_assoc]⟩

theorem leftOf_read (n : Nat) (s : Source) : s.LeftOf (s.read n).2 := by
  rcases hr : s.read n with ⟨fault | b, rest⟩
  · obtain ⟨-, -, rfl⟩ := eq_of_read_error hr
    exact ⟨s.bytes, by simp⟩
  · exact ⟨b, (bytes_of_read hr).1⟩

/-! ## Sources that deliver more, or the same -/

/-- A source delivers what another delivers and then `t`, however either is cut, and then ends in
its own way. -/
structure Extends (t : ByteArray) (ending : Ending) (s s' : Source) : Prop where
  bytes_eq : s'.bytes = s.bytes ++ t
  ending_eq : s'.ending = ending

theorem Extends.refl (s : Source) : s.Extends .empty s.ending s :=
  ⟨by simp, rfl⟩

/-- What is read depends neither on the cuts nor on what follows. -/
theorem Extends.read {t b : ByteArray} {ending : Ending} {n : Nat} {s s' rest : Source}
    (hs : s.Extends t ending s') (h : s.read n = (.ok b, rest)) :
    ∃ rest', s'.read n = (.ok b, rest') ∧ rest.Extends t ending rest' := by
  have hn : b.size = n := (size_of_read h).1
  have hb := (bytes_of_read h).1
  obtain ⟨b', rest', h'⟩ : ∃ b' rest', s'.read n = (.ok b', rest') := by
    apply exists_read
    rw [hs.bytes_eq, hb]
    simp only [ByteArray.size_append]
    omega
  have hb' := bytes_of_read h'
  have hsplit : b ++ (rest.bytes ++ t) = b' ++ rest'.bytes := by
    calc
      b ++ (rest.bytes ++ t) = b ++ rest.bytes ++ t := ByteArray.append_assoc.symm
      _ = s.bytes ++ t := by rw [hb]
      _ = s'.bytes := hs.bytes_eq.symm
      _ = b' ++ rest'.bytes := hb'.1
  have hsize : b.size = b'.size := by rw [hn, (size_of_read h').1]
  obtain ⟨rfl, hrest⟩ := (ByteArray.append_eq_append_iff_of_size_eq_left hsize).mp hsplit
  exact ⟨rest', h', hrest.symm, by rw [hb'.2, hs.ending_eq]⟩

/-- Two sources deliver the same bytes and end in the same way. -/
structure Same (s s' : Source) : Prop where
  bytes_eq : s'.bytes = s.bytes
  ending_eq : s'.ending = s.ending

theorem Same.read {s s' : Source} (h : s.Same s') (n : Nat) :
    (s'.read n).1 = (s.read n).1 ∧ (s.read n).2.Same (s'.read n).2 := by
  by_cases hn : n ≤ s.bytes.size
  · obtain ⟨b, rest, hr⟩ := exists_read hn
    have hx : s.Extends .empty s.ending s' := ⟨by simpa using h.bytes_eq, h.ending_eq⟩
    obtain ⟨rest', hr', hrest⟩ := hx.read hr
    rw [hr, hr']
    exact ⟨rfl, by simpa using hrest.bytes_eq, by rw [hrest.ending_eq, (bytes_of_read hr).2]⟩
  · have hs : s.bytes.size < n := by omega
    rw [read_of_size_lt hs, read_of_size_lt (h.bytes_eq ▸ hs), h.ending_eq]
    exact ⟨rfl, rfl, h.ending_eq⟩

end Source

end ReplicaChain
