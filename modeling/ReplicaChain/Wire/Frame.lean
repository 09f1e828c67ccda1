import ReplicaChain.Stream.Sink
import ReplicaChain.Stream.Source
import ReplicaChain.Wire.Packet

/-!
# Frames

A frame is a packet on the wire: the header, the declared bytes of the argument and, unless the
payload is deferred, the declared bytes of the data.  `Packet.encode` refuses a packet that holds
less than it declares.  `Packet.decode` reads one frame off a source and leaves the rest of the
stream where it stands; it refuses an oversized argument before reading it and an oversized payload
before making room for it.

A payload that fills a whole block is read into a buffer lent by the pool.  Every other buffer that
decoding borrows is back in the pool when decoding ends, however it ends.
-/

namespace ReplicaChain.Wire

def maxArgumentSize : Nat :=
  65536

def maxPayloadSize : Nat :=
  16777216

namespace Packet

/-! ## Writing -/

def encode (p : Packet) : Except Fault ByteArray :=
  let argumentSize := p.header.argumentSize.toNat
  let payloadSize := p.header.payloadSize
  if p.argument.size < argumentSize then
    .error (.argumentLength argumentSize p.argument.size)
  else if p.data.size < payloadSize then
    .error (.protocol (.shortPayload payloadSize p.data.size))
  else
    .ok (p.header.encode ++ Bytes.take argumentSize p.argument ++
      Bytes.take payloadSize p.data.bytes)

def writeTo (k : Sink) (p : Packet) : Except Fault Unit × Sink :=
  match p.encode with
  | .error fault => (.error fault, k)
  | .ok frame => k.write frame

/-! ## Reading -/

/-- Reads a header through a lent header buffer, which is given back at once.  When the stream ends
early, the buffer holds what arrived of the header. -/
def decodeHeader (pool : BufferPool) (s : Source) :
    Except Fault Header × BufferPool × Source :=
  let lent := pool.lend .header
  match s.read Header.byteSize with
  | (.error fault, rest) => (.error fault, lent.2.release (lent.1.receive s.bytes), rest)
  | (.ok bytes, rest) =>
    let raw := lent.1.receive bytes
    (Header.parse raw.bytes, lent.2.release raw, rest)

def decodeArgument (h : Header) (s : Source) : Except Fault ByteArray × Source :=
  let size := h.argumentSize.toNat
  if maxArgumentSize < size then (.error (.protocol (.longArgument size maxArgumentSize)), s)
  else s.read size

/-- The buffer into which the payload announced by a header is read. -/
def payloadBuffer (h : Header) (pool : BufferPool) : Buffer × BufferPool :=
  if h.opcode = .write ∧ h.payloadSize = blockSize then pool.lend .block
  else (.zeroed h.payloadSize, pool)

theorem size_payloadBuffer (h : Header) (pool : BufferPool) :
    (payloadBuffer h pool).1.size = h.payloadSize := by
  unfold payloadBuffer
  split
  · rename_i hblock
    rw [BufferPool.size_lend, hblock.2]
    rfl
  · exact Bytes.size_zeros _

def decodePayload (h : Header) (pool : BufferPool) (s : Source) :
    Except Fault Buffer × BufferPool × Source :=
  if maxPayloadSize < h.payloadSize then (.error (.payloadTooLarge h.payloadSize), pool, s)
  else
    let lent := payloadBuffer h pool
    match s.read h.payloadSize with
    | (.error fault, rest) => (.error fault, lent.2.release (lent.1.receive s.bytes), rest)
    | (.ok bytes, rest) => (.ok (lent.1.receive bytes), lent.2, rest)

variable {h : Header} {pool : BufferPool} {s rest : Source} {bytes : ByteArray}

/-- What is parsed is what was read, whatever the lent buffer was used for before. -/
theorem decodeHeader_of_read (hr : s.read Header.byteSize = (.ok bytes, rest)) :
    decodeHeader pool s =
      (Header.parse bytes,
        (pool.lend .header).2.release ((pool.lend .header).1.fill bytes), rest) := by
  have hsize : bytes.size = (pool.lend .header).1.size := by
    rw [(Source.size_of_read hr).1, BufferPool.size_lend]
    rfl
  simp only [decodeHeader, hr, Buffer.receive_of_size_eq hsize]
  rfl

theorem decodeHeader_of_read_error {fault : Fault}
    (hr : s.read Header.byteSize = (.error fault, rest)) :
    decodeHeader pool s =
      (.error fault,
        (pool.lend .header).2.release ((pool.lend .header).1.receive s.bytes), rest) := by
  simp only [decodeHeader, hr]

/-- What is kept is what was read, whichever buffer it was read into. -/
theorem decodePayload_of_read (hlimit : ¬ maxPayloadSize < h.payloadSize)
    (hr : s.read h.payloadSize = (.ok bytes, rest)) :
    decodePayload h pool s =
      (.ok ((payloadBuffer h pool).1.fill bytes), (payloadBuffer h pool).2, rest) := by
  have hsize : bytes.size = (payloadBuffer h pool).1.size := by
    rw [(Source.size_of_read hr).1, size_payloadBuffer]
  simp only [decodePayload, if_neg hlimit, hr, Buffer.receive_of_size_eq hsize]

theorem decodePayload_of_read_error {fault : Fault} (hlimit : ¬ maxPayloadSize < h.payloadSize)
    (hr : s.read h.payloadSize = (.error fault, rest)) :
    decodePayload h pool s =
      (.error fault,
        (payloadBuffer h pool).2.release ((payloadBuffer h pool).1.receive s.bytes), rest) := by
  simp only [decodePayload, if_neg hlimit, hr]

def decode (pool : BufferPool) (s : Source) : Except Fault Packet × BufferPool × Source :=
  match decodeHeader pool s with
  | (.error fault, pool, s) => (.error fault, pool, s)
  | (.ok header, pool, s) =>
    match decodeArgument header s with
    | (.error fault, s) => (.error fault, pool, s)
    | (.ok argument, s) =>
      match decodePayload header pool s with
      | (.error fault, pool, s) => (.error fault, pool, s)
      | (.ok data, pool, s) => (.ok ⟨header, argument, data⟩, pool, s)

theorem size_of_decodeHeader {pool pool' : BufferPool} {s s' : Source} {h : Header}
    (hd : decodeHeader pool s = (.ok h, pool', s')) : s'.size + Header.byteSize = s.size := by
  unfold decodeHeader at hd
  dsimp only at hd
  split at hd
  · simp at hd
  · rename_i hr
    simp only [Prod.mk.injEq] at hd
    rw [← hd.2.2]
    exact (Source.size_of_read hr).2

theorem size_of_decodeArgument {h : Header} {s s' : Source} {b : ByteArray}
    (hd : decodeArgument h s = (.ok b, s')) : s'.size ≤ s.size := by
  unfold decodeArgument at hd
  dsimp only at hd
  split at hd
  · simp at hd
  · have := Source.size_of_read hd
    omega

theorem size_of_decodePayload {h : Header} {pool pool' : BufferPool} {s s' : Source} {b : Buffer}
    (hd : decodePayload h pool s = (.ok b, pool', s')) : s'.size ≤ s.size := by
  unfold decodePayload at hd
  split at hd
  · simp at hd
  · dsimp only at hd
    split at hd
    · simp at hd
    · rename_i hr
      have := Source.size_of_read hr
      simp only [Prod.mk.injEq] at hd
      rw [← hd.2.2]
      omega

/-- Every packet takes at least a header off the stream. -/
theorem size_of_decode {pool pool' : BufferPool} {s s' : Source} {p : Packet}
    (hd : decode pool s = (.ok p, pool', s')) : s'.size + Header.byteSize ≤ s.size := by
  unfold decode at hd
  split at hd
  · simp at hd
  · rename_i hh
    split at hd
    · simp at hd
    · rename_i ha
      split at hd
      · simp at hd
      · rename_i hp
        simp only [Prod.mk.injEq] at hd
        have h₁ := size_of_decodeHeader hh
        have h₂ := size_of_decodeArgument ha
        have h₃ := size_of_decodePayload hp
        rw [← hd.2.2]
        omega

end Packet

end ReplicaChain.Wire
