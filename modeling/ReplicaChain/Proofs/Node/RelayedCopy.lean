import Mathlib.Data.List.Basic
import ReplicaChain.Node.Startup
import ReplicaChain.Proofs.Node.Application

/-!
# The relayed frame and the packet encoder

The frame that goes to followers is put together without the encoder of packets, and it treats a
deferred payload and the declared size in its own way.  For a packet that was received both give the
same bytes: those of the packet with its hop count and its argument cleared.  A follower that reads
them judges the packet like the node that it was sent to, and has nobody to relay it to.
-/

namespace ReplicaChain

open Follower (relayFrame)
open Wire (Packet)

variable {ω σ : Type}

/-! ## Encoding -/

/-- For a packet that was received the relay writes what the encoder writes of the copy. -/
theorem Wire.Packet.Decodable.encode_alone {p : Packet} (hp : p.Decodable) :
    p.alone.encode = .ok (relayFrame p) := by
  have hfits := hp.fits_alone
  rw [hp.relayFrame_eq]
  exact Packet.encode_eq_frame hfits.argument_le hfits.payload_le

/-- The checksum is judged by the payload and the header that both packets share. -/
theorem Wire.Packet.verifyChecksum_alone (p : Packet) :
    p.alone.verifyChecksum = p.verifyChecksum := rfl

namespace Handling

/-- Resolving the copy finds no followers, and leaves everything else as it was. -/
theorem resolve_alone {x : Handling ω σ} {p : Packet} (hx : x.request.packet = p.alone) :
    x.resolve = (none, { x with request := x.request.withFollowers [] }) := by
  have hparse : Request.parseFollowers x.request.packet = .ok [] := by
    rw [hx, parseFollowers_alone]
  rw [resolve, hparse]

/-! ## Reading -/

/-- For every packet that was received, the relayed frame is the encoded copy of it with no followers
remaining and no argument.  Wherever the frame begins in a stream, whatever follows it and however the
stream is cut, it is read as a whole: as the header of the packet with only those two fields changed,
and its payload.  The checksum of what is read gets the same verdict, and resolving its followers
gives the empty list. -/
theorem relayed_frame_faithful {pool : BufferPool} {s : Source} {p : Packet}
    (hd : (Packet.decode pool s).1 = .ok p) :
    let header : Wire.Header := { p.header with remaining := 0, argumentSize := 0 }
    ({ p with header, argument := .empty } : Packet).encode = .ok (relayFrame p) ∧
      ∀ (pool' : BufferPool) (s' : Source) (t : ByteArray), s'.bytes = relayFrame p ++ t →
        ∃ q pool'' rest, Packet.decode pool' s' = (.ok q, pool'', rest) ∧ rest.bytes = t ∧
          q.header = header ∧ q.argument = .empty ∧ q.payload = p.payload ∧
          q.verifyChecksum = p.verifyChecksum ∧
          ∀ x : Handling ω σ, x.request.packet = q →
            x.resolve = (none, { x with request := x.request.withFollowers [] }) := by
  have hp : p.Decodable := Packet.decodable_of_decode hd
  refine ⟨hp.encode_alone, fun pool' s' t hs ↦ ?_⟩
  obtain ⟨pool'', rest, hread, hrest⟩ := hp.decode_relayFrame pool' hs
  exact ⟨p.alone, pool'', rest, hread, hrest, rfl, rfl, rfl, p.verifyChecksum_alone,
    fun x hx ↦ resolve_alone hx⟩

/-- A write to two followers arrives with a wrong checksum.  The copy of it, read off a stream that is
cut within the header and goes on with a byte of something else, is found to be just as wrong. -/
theorem relayed_frame_faithful_corrupted :
    let p : Packet := (Packet.write 5 7 1 2 0 (Bytes.ofText "data")).withFollowers
      (Bytes.ofText "0:10.0.0.2:1,1:10.0.0.3:1,") 2
    let damaged : Packet := { p with header := { p.header with crc := 1 } }
    let s : Source := .ofBytes damaged.frame
    let s' : Source :=
      ⟨[Bytes.take 20 (relayFrame damaged), Bytes.drop 20 (relayFrame damaged) ++ ⟨#[0]⟩], .closed⟩
    (Packet.decode .standard s).1 = .ok damaged ∧
      ∃ q pool rest, Packet.decode .standard s' = (.ok q, pool, rest) ∧ rest.bytes = ⟨#[0]⟩ ∧
        q.header.remaining = 0 ∧ q.payload = Bytes.ofText "data" ∧
        q.verifyChecksum = .error (.checksum 1 0xadf3f363) ∧
        Request.parseFollowers damaged = .ok ["10.0.0.2:1", "10.0.0.3:1"] ∧
        (⟨.ofPacket q, Node.ofSettings {} (), .unbounded⟩ :
          Handling Extent.Store Unit).resolve.2.request.followers = [] := by
  intro p damaged s s'
  have hd : (Packet.decode .standard s).1 = .ok damaged := by decide +kernel
  have hs' : s'.bytes = relayFrame damaged ++ ⟨#[0]⟩ := by
    simp [s', Source.bytes, ← ByteArray.append_assoc, Bytes.take_append_drop]
  obtain ⟨-, hread⟩ := @relayed_frame_faithful Extent.Store Unit _ _ _ hd
  obtain ⟨q, pool, rest, hq, hrest, hheader, -, hpayload, hverdict, hresolve⟩ :=
    hread .standard s' ⟨#[0]⟩ hs'
  refine ⟨hd, q, pool, rest, hq, hrest, by rw [hheader], hpayload.trans (by decide +kernel),
    hverdict.trans (by decide +kernel), by decide +kernel, ?_⟩
  rw [hresolve _ rfl]
  rfl

end Handling

end ReplicaChain
