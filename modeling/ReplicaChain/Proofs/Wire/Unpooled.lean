import ReplicaChain.Proofs.Buffer.Circulation
import ReplicaChain.Proofs.Wire.Decoding

/-!
# Decoding without buffers

A packet is read through buffers that others have used before.  `decodePlain` reads one without any:
it says what a packet is by the bytes of the stream alone.  Decoding agrees with it whatever is in the
pool, so nothing of an earlier packet shows, and a full block that was lent holds the same bytes as one
that was made for the occasion.  No buffer is lost on the way either.  Once the packet is dropped, if
there is one, the pool is stocked at least as well as before.
-/

namespace ReplicaChain

/-! ## Stock -/

namespace BufferPool

def WithinCapacity (p : BufferPool) : Prop :=
  ∀ s, p.available s ≤ (p.shelf s).capacity

/-- A pool stays within its capacity whatever is done with its buffers. -/
theorem Circulation.Balanced.withinCapacity {configured : Shelf → Nat}
    {origins : List (Option Shelf)} {c : Circulation} (h : c.Balanced configured origins) :
    c.pool.WithinCapacity := by
  intro s
  rw [h.capacity_eq]
  exact h.available_le s

/-- A pool that has at least as many free buffers as another, of which it may be a later state. -/
structure Restocks (p p' : BufferPool) : Prop where
  within : p'.WithinCapacity
  available_le : ∀ s, p.available s ≤ p'.available s

variable {p p' p'' : BufferPool} {b : Buffer} {s : Shelf}

theorem WithinCapacity.restocks (h : p.WithinCapacity) : p.Restocks p :=
  ⟨h, fun _ ↦ Nat.le_refl _⟩

theorem Restocks.trans (h : p.Restocks p') (h' : p'.Restocks p'') : p.Restocks p'' :=
  ⟨h'.within, fun s ↦ Nat.le_trans (h.available_le s) (h'.available_le s)⟩

/-- A loan that is returned leaves no list shorter: the buffer either finds the place that it had or,
if it was made for the loan, one more. -/
theorem WithinCapacity.restocks_return (h : p.WithinCapacity) (hb : b.home = some s) :
    p.Restocks ((p.lend s).2.release b) := by
  have havailable (s' : Shelf) : p.available s' ≤ ((p.lend s).2.release b).available s' ∧
      ((p.lend s).2.release b).available s' ≤ (((p.lend s).2.release b).shelf s').capacity := by
    have hle := h s'
    simp only [available, shelf_release, hb, Option.some.injEq, shelf_lend] at hle ⊢
    by_cases hs : s = s'
    · subst hs
      simp only [if_true, FreeList.available_takeBack, FreeList.capacity_takeBack,
        FreeList.available_lend]
      have hcapacity : ((p.shelf s).lend s.bufferSize).2.capacity = (p.shelf s).capacity := rfl
      rw [hcapacity]
      split <;> omega
    · simp only [if_neg hs]
      exact ⟨Nat.le_refl _, hle⟩
  exact ⟨fun s' ↦ (havailable s').2, fun s' ↦ (havailable s').1⟩

end BufferPool

namespace Wire.Packet

/-! ## The bytes of a packet -/

/-- What a packet holds, without regard to the buffer that holds it. -/
def contents (p : Packet) : Header × ByteArray × ByteArray :=
  (p.header, p.argument, p.data.bytes)

def decodePlain (s : Source) : Except Fault (Header × ByteArray × ByteArray) × Source :=
  match s.read Header.byteSize with
  | (.error fault, s) => (.error fault, s)
  | (.ok raw, s) =>
    match Header.parse raw with
    | .error fault => (.error fault, s)
    | .ok h =>
      match decodeArgument h s with
      | (.error fault, s) => (.error fault, s)
      | (.ok argument, s) =>
        if maxPayloadSize < h.payloadSize then (.error (.payloadTooLarge h.payloadSize), s)
        else
          match s.read h.payloadSize with
          | (.error fault, s) => (.error fault, s)
          | (.ok data, s) => (.ok (h, argument, data), s)

def poolAfter (pool : BufferPool) (s : Source) : BufferPool :=
  match decode pool s with
  | (.error _, pool, _) => pool
  | (.ok p, pool, _) => pool.release p.data

variable {pool : BufferPool} {s : Source} {h : Header}

theorem decode_plain (pool : BufferPool) (s : Source) :
    ((decode pool s).1.map contents, (decode pool s).2.2) = decodePlain s := by
  rcases hr : s.read Header.byteSize with ⟨fault | raw, s₁⟩
  · simp only [decode, decodePlain, decodeHeader_of_read_error hr, hr]
    rfl
  simp only [decode, decodePlain, decodeHeader_of_read hr, hr]
  rcases Header.parse raw with fault | h
  · rfl
  dsimp only
  rcases decodeArgument h s₁ with ⟨fault | argument, s₂⟩
  · rfl
  by_cases hlimit : maxPayloadSize < h.payloadSize
  · simp only [decodePayload, if_pos hlimit]
    rfl
  rcases hd : s₂.read h.payloadSize with ⟨fault | data, s₃⟩
  · simp only [decodePayload_of_read_error hlimit hd, if_neg hlimit, hd]
    rfl
  · simp only [decodePayload_of_read hlimit hd, if_neg hlimit, hd]
    rfl

/-! ## The buffers of a packet -/

theorem restocks_decodeHeader (hpool : pool.WithinCapacity) (s : Source) :
    pool.Restocks (decodeHeader pool s).2.1 := by
  rcases hr : s.read Header.byteSize with ⟨fault | raw, rest⟩
  · rw [decodeHeader_of_read_error hr]
    dsimp only
    exact hpool.restocks_return rfl
  · rw [decodeHeader_of_read hr]
    dsimp only
    exact hpool.restocks_return rfl

/-- The buffer for a payload may be dropped with anything in it. -/
theorem restocks_payloadBuffer (hpool : pool.WithinCapacity) (h : Header) (bytes : ByteArray) :
    pool.Restocks ((payloadBuffer h pool).2.release ((payloadBuffer h pool).1.fill bytes)) := by
  unfold payloadBuffer
  split
  · exact hpool.restocks_return rfl
  · exact hpool.restocks

/-- The pool when a payload has been read and dropped. -/
theorem restocks_decodePayload (hpool : pool.WithinCapacity) (h : Header) (s : Source) :
    match decodePayload h pool s with
    | (.error _, pool', _) => pool.Restocks pool'
    | (.ok data, pool', _) => pool.Restocks (pool'.release data) := by
  by_cases hlimit : maxPayloadSize < h.payloadSize
  · simp only [decodePayload, if_pos hlimit]
    exact hpool.restocks
  rcases hd : s.read h.payloadSize with ⟨fault | data, rest⟩
  · rw [decodePayload_of_read_error hlimit hd]
    exact restocks_payloadBuffer hpool h _
  · rw [decodePayload_of_read hlimit hd]
    exact restocks_payloadBuffer hpool h data

theorem restocks_poolAfter (hpool : pool.WithinCapacity) (s : Source) :
    pool.Restocks (poolAfter pool s) := by
  have hheader := restocks_decodeHeader hpool s
  unfold poolAfter decode
  generalize decodeHeader pool s = header at hheader ⊢
  obtain ⟨_ | h, pool₁, s₁⟩ := header
  · exact hheader
  dsimp only at hheader ⊢
  rcases decodeArgument h s₁ with ⟨_ | argument, s₂⟩
  · exact hheader
  have hpayload := restocks_decodePayload hheader.within h s₂
  dsimp only
  generalize decodePayload h pool₁ s₂ = payload at hpayload ⊢
  obtain ⟨_ | data, pool₂, s₃⟩ := payload <;> exact hheader.trans hpayload

/-- The same is read off a stream, and as much of it, whatever two pools hold: the bytes of the stream,
as they are read without any buffers.  It ends up in a lent buffer just when it is the full block of
a write.  The pool that was used is left with at least as many free buffers of each size, whether a
packet was read or not. -/
theorem decode_unpooled (hpool : pool.WithinCapacity) (pool' : BufferPool) (s : Source) :
    (decode pool s).1 = (decode pool' s).1 ∧
    (decode pool s).2.2 = (decode pool' s).2.2 ∧
    ((decode pool s).1.map contents, (decode pool s).2.2) = decodePlain s ∧
    (∀ p, (decode pool s).1 = .ok p →
      (p.data.isPooled ↔ p.header.opcode = .write ∧ p.header.payloadSize = blockSize)) ∧
    ∀ shelf, pool.available shelf ≤ (poolAfter pool s).available shelf := by
  obtain ⟨hpacket, hrest⟩ := decode_pool pool pool' s
  refine ⟨hpacket, hrest, decode_plain pool s, fun p hp ↦ ?_,
    (restocks_poolAfter hpool s).available_le⟩
  obtain ⟨pool₁, s₁, s₂, -, -, hdata⟩ := decode_ok_iff.mp (Prod.ext hp rfl)
  by_cases hlimit : maxPayloadSize < p.header.payloadSize
  · simp [decodePayload, hlimit] at hdata
  · rcases hr : s₂.read p.header.payloadSize with ⟨fault | bytes, rest⟩
    · simp [decodePayload_of_read_error hlimit hr] at hdata
    · rw [decodePayload_of_read hlimit hr] at hdata
      have hfill := Except.ok.inj (Prod.mk.inj hdata).1
      rw [← hfill]
      simp [Buffer.isPooled, Buffer.fill, home_payloadBuffer]

/-- The write of a full block breaks off after two bytes of the block, and the blocks that were lent for
it held other bytes or did not exist. -/
theorem decode_unpooled_short_block :
    let stale : BufferPool := ⟨⟨[⟨#[7, 7, 7]⟩], 1⟩, ⟨[⟨#[9, 9, 9, 9]⟩, .empty], 2⟩⟩
    let h : Header := { Header.blank with opcode := .write, size := 131072 }
    let s : Source := ⟨[h.encode, ⟨#[1, 2]⟩], .closed⟩
    stale.WithinCapacity ∧
    (decode stale s).1 = (decode (.filled 0 0) s).1 ∧
    (decode stale s).2.2 = (decode (.filled 0 0) s).2.2 ∧
    ((decode stale s).1.map contents, (decode stale s).2.2) = decodePlain s ∧
    (poolAfter stale s).available .block = 2 ∧
    ∀ shelf, stale.available shelf ≤ (poolAfter stale s).available shelf := by
  intro stale h s
  have hstale : stale.WithinCapacity := by
    intro shelf
    cases shelf <;> decide
  obtain ⟨hpacket, hrest, hplain, -, havailable⟩ := decode_unpooled hstale (.filled 0 0) s
  exact ⟨hstale, hpacket, hrest, hplain, by decide +kernel, havailable⟩

end Wire.Packet

end ReplicaChain
