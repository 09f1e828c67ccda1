import ReplicaChain.Wire.Frame

/-!
# Replies on the wire

A reply declares exactly the bytes that it holds, up to the largest size a header can express, and no
argument.  So it can always be written, whatever its request was.
-/

namespace ReplicaChain.Wire.Packet

theorem size_reply (r : ResultCode) (b : ByteArray) (p : Packet) :
    (p.reply r b).header.size.toNat = min b.size 0xFFFFFFFF := by
  change (UInt32.ofNat (min b.size 0xFFFFFFFF)).toNat = _
  rw [UInt32.toNat_ofNat_of_lt']
  exact Nat.lt_of_le_of_lt (Nat.min_le_right _ _) (by decide)

theorem payloadSize_reply_le (r : ResultCode) (b : ByteArray) (p : Packet) :
    (p.reply r b).header.payloadSize ≤ b.size := by
  unfold Header.payloadSize
  split
  · exact Nat.zero_le _
  · rw [size_reply]
    exact Nat.min_le_left _ _

/-- No fault is ever answered with success. -/
theorem faultCode_ne_ok (action : Action) (fault : Fault) (p : Packet) :
    p.faultCode action fault ≠ .ok := by
  have hstorage (opcode : Opcode) (fault : StorageFault) :
      (storageVerdict opcode fault).forWire ≠ .ok := by
    cases fault <;> simp only [storageVerdict] <;> try split
    all_goals simp [ResultCode.forWire]
  unfold faultCode verdict
  split
  · simp [ResultCode.forWire]
  · split
    · exact hstorage _ _
    · simp [ResultCode.forWire]
    · simp [ResultCode.forWire]

/-- The bytes that a packet takes on the wire, if it holds what it declares. -/
def frame (p : Packet) : ByteArray :=
  p.header.encode ++ Bytes.take p.header.argumentSize.toNat p.argument ++
    Bytes.take p.header.payloadSize p.data.bytes

theorem encode_eq_frame {p : Packet} (ha : p.header.argumentSize.toNat ≤ p.argument.size)
    (hd : p.header.payloadSize ≤ p.data.size) : p.encode = .ok p.frame := by
  unfold encode
  rw [if_neg (Nat.not_lt.mpr ha), if_neg (Nat.not_lt.mpr hd)]
  rfl

theorem encode_reply (r : ResultCode) (b : ByteArray) (p : Packet) :
    (p.reply r b).encode = .ok (p.reply r b).frame :=
  encode_eq_frame (Nat.zero_le _) (payloadSize_reply_le r b p)

end ReplicaChain.Wire.Packet
