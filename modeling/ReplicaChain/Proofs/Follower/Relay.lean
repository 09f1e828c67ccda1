import ReplicaChain.Follower.Forwarder
import ReplicaChain.Proofs.Wire.RoundTrip

/-!
# The copy that followers get

The frame that is relayed is the frame of a packet: the one that was received, but on its way to
nobody else and naming nobody.  A follower reads just this packet off a link, however the bytes are
cut and whatever comes after them.
-/

namespace ReplicaChain.Wire.Packet

open Bytes
open Follower (relayHeader relayFrame)

variable {p : Packet}

/-- The packet as one node alone is to handle it. -/
def alone (p : Packet) : Packet :=
  { p with
    header := { p.header with remaining := 0, argumentSize := 0 }
    argument := .empty }

theorem received_alone (p : Packet) : p.alone.received = p.received.alone := rfl

theorem Decodable.received_alone (hp : p.Decodable) : p.alone.received = p.alone := by
  rw [Packet.received_alone, hp.received_eq]

theorem Decodable.fits_alone (hp : p.Decodable) : p.alone.Fits where
  canonical := hp.fits.canonical
  argument_le := Nat.le_refl 0
  argument_limit := Nat.zero_le _
  payload_le := hp.fits.payload_le
  payload_limit := hp.fits.payload_limit

/-- What was received holds the declared payload, so the relayed frame carries all of it. -/
theorem Decodable.payload_eq (hp : p.Decodable) (hd : p.header.defersPayload = false) :
    p.payload = p.data.bytes ∧ p.data.size = p.header.size.toNat := by
  have hsize : p.data.size = p.header.size.toNat := by
    rw [hp.size_data, Header.payloadSize, hd]
    rfl
  exact ⟨take_of_size_le (Nat.le_of_eq hsize), hsize⟩

theorem Decodable.relayHeader_eq (hp : p.Decodable) : relayHeader p = p.alone.header := by
  unfold relayHeader alone
  cases hd : p.header.defersPayload with
  | true => rfl
  | false =>
    obtain ⟨hpayload, hsize⟩ := hp.payload_eq hd
    have hword : UInt32.ofNat p.data.bytes.size = p.header.size := by
      rw [show p.data.bytes.size = p.header.size.toNat from hsize, UInt32.ofNat_toNat]
    simp [hpayload, hword]

theorem relayFrame_ne_empty (p : Packet) : relayFrame p ≠ .empty := by
  intro hempty
  have hsize := congrArg ByteArray.size hempty
  rw [relayFrame, ByteArray.size_append, Header.size_encode, ByteArray.size_empty] at hsize
  exact absurd hsize (by simp [Header.byteSize])

theorem Decodable.relayFrame_eq (hp : p.Decodable) : relayFrame p = p.alone.frame := by
  have hpayload : (if p.header.defersPayload then .empty else p.payload) =
      take p.alone.header.payloadSize p.alone.data.bytes := by
    cases hd : p.header.defersPayload with
    | true =>
      have hzero : p.alone.header.payloadSize = 0 := if_pos hd
      rw [if_pos rfl, hzero]
      exact (ByteArray.size_eq_zero_iff.mp (by simp)).symm
    | false =>
      rw [if_neg (by simp), (hp.payload_eq hd).1]
      exact (take_of_size_le (Nat.le_of_eq hp.size_data)).symm
  have hargument : take p.alone.header.argumentSize.toNat p.alone.argument = .empty :=
    ByteArray.size_eq_zero_iff.mp (by simp [alone])
  calc
    relayFrame p = p.alone.header.encode ++
        take p.alone.header.payloadSize p.alone.data.bytes := by
      rw [relayFrame, hp.relayHeader_eq, hpayload]
    _ = p.alone.frame := by
      rw [frame, hargument, ByteArray.append_empty]

/-- The relayed frame is read as the packet that it is a copy of. -/
theorem Decodable.decode_relayFrame (hp : p.Decodable) (pool : BufferPool) {s : Source}
    {t : ByteArray} (hs : s.bytes = relayFrame p ++ t) :
    ∃ pool' rest, decode pool s = (.ok p.alone, pool', rest) ∧ rest.bytes = t := by
  rw [hp.relayFrame_eq] at hs
  obtain ⟨pool', rest, hd, hrest, -⟩ := hp.fits_alone.decode_frame pool hs
  rw [hp.received_alone] at hd
  exact ⟨pool', rest, hd, hrest⟩

theorem Decodable.decodable_alone (hp : p.Decodable) : p.alone.Decodable := by
  have hbytes : (Source.ofBytes (relayFrame p)).bytes = relayFrame p ++ .empty := by simp
  obtain ⟨pool', rest, hd, -⟩ := hp.decode_relayFrame .standard hbytes
  exact ⟨.standard, _, pool', rest, hd⟩

theorem Decodable.isFrame_relayFrame (hp : p.Decodable) : IsFrame (relayFrame p) p.alone := by
  have hbytes : (Source.ofBytes (relayFrame p)).bytes = relayFrame p ++ .empty := by simp
  obtain ⟨pool', rest, hd, hrest⟩ := hp.decode_relayFrame .standard hbytes
  exact ⟨.standard, pool', rest, hd, hrest⟩

end ReplicaChain.Wire.Packet
