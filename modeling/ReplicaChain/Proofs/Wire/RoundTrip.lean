import ReplicaChain.Proofs.Wire.Decoding
import ReplicaChain.Proofs.Wire.Reply

/-!
# Decoding what was encoded

A packet that a node could have received is decoded from its own frame, whatever follows the frame
and however the stream is cut.  Decoding gives back the header and just the declared bytes of the
argument and of the data.
-/

namespace ReplicaChain

open Bytes

/-! ## Words and headers -/

namespace Bytes.BigEndian

theorem decode_encode_uint32 (x : UInt32) : UInt32.ofNat (decode (encode 4 x.toNat)) = x := by
  have hlt : x.toNat < weight 4 := x.toNat_lt
  rw [decode_encode, Nat.mod_eq_of_lt hlt, UInt32.ofNat_toNat]

theorem decode_encode_uint64 (x : UInt64) : UInt64.ofNat (decode (encode 8 x.toNat)) = x := by
  have hlt : x.toNat < weight 8 := x.toNat_lt
  rw [decode_encode, Nat.mod_eq_of_lt hlt, UInt64.ofNat_toNat]

end Bytes.BigEndian

namespace Wire

/-- Whether a header is one that parsing can give: the magic byte is right and no assigned opcode is
called unknown. -/
def Header.IsCanonical (h : Header) : Prop :=
  h.magic = Header.magicByte ∧ Opcode.ofByte h.opcode.toByte = h.opcode

namespace Header

theorem ofList_encodeList {h : Header} (hc : h.IsCanonical) : ofList h.encodeList = .ok h := by
  obtain ⟨hmagic, hopcode⟩ := hc
  have hmagic' : byteAt h.encodeList 0 = magicByte := hmagic
  have hmode : ExtentMode.ofByte (byteAt h.encodeList 1) = .ok h.extentMode :=
    ExtentMode.ofByte_toByte h.extentMode
  have hopcode' : Opcode.ofByte (byteAt h.encodeList 2) = h.opcode := hopcode
  have hresult : ResultCode.ofByte (byteAt h.encodeList 3) = .ok h.result :=
    ResultCode.ofByte_toByte h.result
  have hremaining : (byteAt h.encodeList 4).toInt8 = h.remaining := Int8.toInt8_toUInt8 _
  have hcrc : wordAt h.encodeList 5 4 = BigEndian.decode (BigEndian.encode 4 h.crc.toNat) := rfl
  have hsize : wordAt h.encodeList 9 4 = BigEndian.decode (BigEndian.encode 4 h.size.toNat) := rfl
  have hargument : wordAt h.encodeList 13 4 =
      BigEndian.decode (BigEndian.encode 4 h.argumentSize.toNat) := rfl
  have hpartition : wordAt h.encodeList 17 8 =
      BigEndian.decode (BigEndian.encode 8 h.partition.toNat) := rfl
  have hextent : wordAt h.encodeList 25 8 =
      BigEndian.decode (BigEndian.encode 8 h.extent.toNat) := rfl
  have hoffset : wordAt h.encodeList 33 8 =
      BigEndian.decode (BigEndian.encode 8 h.offset.toUInt64.toNat) := rfl
  have hrequest : wordAt h.encodeList 41 8 =
      BigEndian.decode (BigEndian.encode 8 h.requestId.toUInt64.toNat) := rfl
  have hstart : wordAt h.encodeList 49 8 =
      BigEndian.decode (BigEndian.encode 8 h.startTime.toUInt64.toNat) := rfl
  have hkernel : wordAt h.encodeList 57 8 =
      BigEndian.decode (BigEndian.encode 8 h.kernelOffset.toNat) := rfl
  rw [ofList, if_neg (not_not_intro hmagic'), hmode]
  simp only [hresult, hopcode', hremaining, hcrc, hsize, hargument, hpartition, hextent, hoffset,
    hrequest, hstart, hkernel, BigEndian.decode_encode_uint32, BigEndian.decode_encode_uint64,
    Int64.toInt64_toUInt64]
  rw [← hmagic]

theorem parse_encode {h : Header} (hc : h.IsCanonical) : parse h.encode = .ok h := by
  have htake : take byteSize h.encode = h.encode := take_of_size_le (by simp)
  calc
    parse h.encode = ofList (take byteSize h.encode).data.toList := by
      rw [parse, if_neg (by simp)]
    _ = ofList h.encodeList := by rw [htake, encode, List.data_toByteArray]
    _ = .ok h := ofList_encodeList hc

theorem isCanonical_of_parse {b : ByteArray} {h : Header} (hh : parse b = .ok h) :
    h.IsCanonical := by
  unfold parse ofList at hh
  split at hh
  · cases hh
  · split at hh
    · cases hh
    · split at hh
      · cases hh
      · split at hh
        · cases hh
        · cases hh
          exact ⟨rfl, by rw [Opcode.toByte_ofByte]⟩

end Header

/-! ## Frames -/

namespace Packet

/-- A packet that fits the wire: its header is canonical, it holds what it declares, and it declares
no more than a reader accepts. -/
structure Fits (p : Packet) : Prop where
  canonical : p.header.IsCanonical
  argument_le : p.header.argumentSize.toNat ≤ p.argument.size
  argument_limit : p.header.argumentSize.toNat ≤ maxArgumentSize
  payload_le : p.header.payloadSize ≤ p.data.size
  payload_limit : p.header.payloadSize ≤ maxPayloadSize

variable {p : Packet} {pool pool' : BufferPool} {s rest : Source} {t : ByteArray}

/-- What a reader gets of a packet: the declared bytes, in the buffer into which they are read. -/
def received (p : Packet) : Packet where
  header := p.header
  argument := take p.header.argumentSize.toNat p.argument
  data := {
    bytes := take p.header.payloadSize p.data.bytes
    home := if p.header.opcode = .write ∧ p.header.payloadSize = blockSize then some .block
      else none }

theorem decodeHeader_encode {h : Header} (hc : h.IsCanonical) (pool : BufferPool)
    (hs : s.bytes = h.encode ++ t) :
    ∃ pool' rest, decodeHeader pool s = (.ok h, pool', rest) ∧ rest.bytes = t ∧
      rest.ending = s.ending := by
  obtain ⟨rest, hr, hbytes, hend⟩ := Source.read_of_bytes hs
  rw [Header.size_encode] at hr
  exact ⟨_, rest, by rw [decodeHeader_of_read hr, Header.parse_encode hc], hbytes, hend⟩

theorem decodeArgument_frame (ha : p.header.argumentSize.toNat ≤ p.argument.size)
    (hl : p.header.argumentSize.toNat ≤ maxArgumentSize)
    (hs : s.bytes = take p.header.argumentSize.toNat p.argument ++ t) :
    ∃ rest, decodeArgument p.header s =
        (.ok (take p.header.argumentSize.toNat p.argument), rest) ∧ rest.bytes = t ∧
      rest.ending = s.ending := by
  have hsize : (take p.header.argumentSize.toNat p.argument).size =
      p.header.argumentSize.toNat := by
    rw [size_take]
    exact Nat.min_eq_left ha
  obtain ⟨rest, hr, hrest⟩ := Source.read_of_bytes hs
  rw [hsize] at hr
  refine ⟨rest, ?_, hrest⟩
  rw [decodeArgument, if_neg (Nat.not_lt.mpr hl), hr]

/-- A packet that fits is read back from its frame, with just the bytes that it declares, and the
stream is left where the frame ends. -/
theorem Fits.decode_frame (hp : p.Fits) (pool : BufferPool) (hs : s.bytes = p.frame ++ t) :
    ∃ pool' rest, decode pool s = (.ok p.received, pool', rest) ∧ rest.bytes = t ∧
      rest.ending = s.ending := by
  have hpayload : (take p.header.payloadSize p.data.bytes).size = p.header.payloadSize := by
    rw [size_take]
    exact Nat.min_eq_left hp.payload_le
  simp only [frame, ByteArray.append_assoc] at hs
  obtain ⟨pool₁, s₁, hh, hs₁, he₁⟩ := decodeHeader_encode hp.canonical pool hs
  obtain ⟨s₂, ha, hs₂, he₂⟩ := decodeArgument_frame hp.argument_le hp.argument_limit hs₁
  obtain ⟨rest, hd, hrest, he⟩ := Source.read_of_bytes hs₂
  rw [hpayload] at hd
  refine ⟨(payloadBuffer p.header pool₁).2, rest,
    decode_ok_iff.mpr ⟨pool₁, s₁, s₂, hh, ha, ?_⟩, hrest, by rw [he, he₂, he₁]⟩
  change decodePayload p.header pool₁ s₂ = _
  rw [decodePayload_of_read (Nat.not_lt.mpr hp.payload_limit) hd]
  simp only [Buffer.fill, home_payloadBuffer, received]

/-- A packet that holds what it declares is read back whole or refused for its size. -/
theorem decode_frame_or (hc : p.header.IsCanonical)
    (ha : p.header.argumentSize.toNat ≤ p.argument.size)
    (hl : p.header.argumentSize.toNat ≤ maxArgumentSize)
    (hd : p.header.payloadSize ≤ p.data.size) (pool : BufferPool) (hs : s.bytes = p.frame ++ t) :
    p.Fits ∨ (decode pool s).1 = .error (.payloadTooLarge p.header.payloadSize) := by
  by_cases hlimit : p.header.payloadSize ≤ maxPayloadSize
  · exact .inl ⟨hc, ha, hl, hd, hlimit⟩
  · simp only [frame, ByteArray.append_assoc] at hs
    obtain ⟨pool₁, s₁, hh, hs₁, -⟩ := decodeHeader_encode hc pool hs
    obtain ⟨s₂, ha', -⟩ := decodeArgument_frame ha hl hs₁
    refine .inr (decode_of_decodePayload_error hh ha' ?_)
    rw [decodePayload, if_pos (Nat.lt_of_not_le hlimit)]

/-- A reply whose body is not too long can be read back. -/
theorem fits_reply {code : ResultCode} {body : ByteArray} (hc : p.header.IsCanonical)
    (hbody : body.size ≤ maxPayloadSize) : (p.reply code body).Fits where
  canonical := hc
  argument_le := Nat.le_refl 0
  argument_limit := Nat.zero_le _
  payload_le := payloadSize_reply_le code body p
  payload_limit := Nat.le_trans (payloadSize_reply_le code body p) hbody

/-- Of the frame of a reply nothing but the reply can be read, and all of the frame is used up. -/
theorem eq_of_decode_reply {code : ResultCode} {body : ByteArray} {q : Packet}
    (hc : p.header.IsCanonical) (hs : s.bytes = (p.reply code body).frame ++ t)
    (hd : decode pool s = (.ok q, pool', rest)) :
    q = (p.reply code body).received ∧ rest.bytes = t := by
  rcases decode_frame_or (p := p.reply code body) hc (Nat.le_refl _) (Nat.zero_le _)
    (payloadSize_reply_le code body p) pool hs with hfits | hfault
  · obtain ⟨pool₁, rest₁, hd₁, hrest₁, -⟩ := hfits.decode_frame pool hs
    rw [hd] at hd₁
    simp only [Prod.mk.injEq, Except.ok.injEq] at hd₁
    obtain ⟨rfl, -, rfl⟩ := hd₁
    exact ⟨rfl, hrest₁⟩
  · simp [hd] at hfault

/-! ## Packets that were read -/

/-- The packet was read off some stream. -/
def Decodable (p : Packet) : Prop :=
  ∃ pool s pool' rest, decode pool s = (.ok p, pool', rest)

theorem decodable_of_decode (hd : (decode pool s).1 = .ok p) : p.Decodable :=
  ⟨pool, s, (decode pool s).2.1, (decode pool s).2.2, Prod.ext hd rfl⟩

theorem isCanonical_of_decodeHeader {h : Header}
    (hd : decodeHeader pool s = (.ok h, pool', rest)) : h.IsCanonical := by
  rcases hr : s.read Header.byteSize with ⟨fault | bytes, r⟩
  · rw [decodeHeader_of_read_error hr] at hd
    simp at hd
  · rw [decodeHeader_of_read hr] at hd
    exact Header.isCanonical_of_parse (Prod.mk.inj hd).1

theorem argument_of_decodeArgument {h : Header} {b : ByteArray}
    (hd : decodeArgument h s = (.ok b, rest)) :
    b.size = h.argumentSize.toNat ∧ h.argumentSize.toNat ≤ maxArgumentSize := by
  unfold decodeArgument at hd
  dsimp only at hd
  split at hd
  · simp at hd
  · rename_i hlimit
    exact ⟨(Source.size_of_read hd).1, Nat.le_of_not_lt hlimit⟩

theorem data_of_decodePayload {h : Header} {b : Buffer}
    (hd : decodePayload h pool s = (.ok b, pool', rest)) :
    b.size = h.payloadSize ∧ h.payloadSize ≤ maxPayloadSize ∧
      b.home = if h.opcode = .write ∧ h.payloadSize = blockSize then some .block else none := by
  by_cases hlimit : maxPayloadSize < h.payloadSize
  · simp [decodePayload, hlimit] at hd
  · rcases hr : s.read h.payloadSize with ⟨fault | bytes, r⟩
    · simp [decodePayload_of_read_error hlimit hr] at hd
    · rw [decodePayload_of_read hlimit hr] at hd
      obtain ⟨rfl, -, -⟩ := by simpa using hd
      exact ⟨(Source.size_of_read hr).1, Nat.le_of_not_lt hlimit, home_payloadBuffer h pool⟩

/-- What was read holds just what it declares. -/
theorem Decodable.size_argument (hp : p.Decodable) :
    p.argument.size = p.header.argumentSize.toNat := by
  obtain ⟨pool, s, pool', rest, hd⟩ := hp
  obtain ⟨_, _, _, -, ha, -⟩ := decode_ok_iff.mp hd
  exact (argument_of_decodeArgument ha).1

theorem Decodable.size_data (hp : p.Decodable) : p.data.size = p.header.payloadSize := by
  obtain ⟨pool, s, pool', rest, hd⟩ := hp
  obtain ⟨_, _, _, -, -, hb⟩ := decode_ok_iff.mp hd
  exact (data_of_decodePayload hb).1

theorem Decodable.home_data (hp : p.Decodable) :
    p.data.home =
      if p.header.opcode = .write ∧ p.header.payloadSize = blockSize then some .block else none := by
  obtain ⟨pool, s, pool', rest, hd⟩ := hp
  obtain ⟨_, _, _, -, -, hb⟩ := decode_ok_iff.mp hd
  exact (data_of_decodePayload hb).2.2

theorem Decodable.fits (hp : p.Decodable) : p.Fits where
  canonical := by
    obtain ⟨pool, s, pool', rest, hd⟩ := hp
    obtain ⟨_, _, _, hh, -, -⟩ := decode_ok_iff.mp hd
    exact isCanonical_of_decodeHeader hh
  argument_le := Nat.le_of_eq hp.size_argument.symm
  argument_limit := by
    obtain ⟨pool, s, pool', rest, hd⟩ := hp
    obtain ⟨_, _, _, -, ha, -⟩ := decode_ok_iff.mp hd
    exact (argument_of_decodeArgument ha).2
  payload_le := Nat.le_of_eq hp.size_data.symm
  payload_limit := by
    obtain ⟨pool, s, pool', rest, hd⟩ := hp
    obtain ⟨_, _, _, -, -, hb⟩ := decode_ok_iff.mp hd
    exact (data_of_decodePayload hb).2.1

/-- Reading a packet that was read before gives the same packet. -/
theorem Decodable.received_eq (hp : p.Decodable) : p.received = p := by
  have ha := take_of_size_le (Nat.le_of_eq hp.size_argument)
  have hb : take p.header.payloadSize p.data.bytes = p.data.bytes :=
    take_of_size_le (Nat.le_of_eq hp.size_data)
  rw [received, ha, hb, ← hp.home_data]

/-! ## Byte strings that are frames -/

/-- A byte string is the frame of a packet: read by itself it gives the packet and nothing is left. -/
def IsFrame (frame : ByteArray) (p : Packet) : Prop :=
  ∃ pool pool' rest, decode pool (.ofBytes frame) = (.ok p, pool', rest) ∧ rest.bytes = .empty

/-- A frame is one for every pool. -/
theorem IsFrame.decode {frame : ByteArray} (h : IsFrame frame p) (pool : BufferPool) :
    ∃ pool' rest,
      Packet.decode pool (.ofBytes frame) = (.ok p, pool', rest) ∧ rest.bytes = .empty := by
  obtain ⟨pool₁, pool₁', rest, hd, hrest⟩ := h
  obtain ⟨pool', hd'⟩ := exists_decode_eq pool hd
  exact ⟨pool', rest, hd', hrest⟩

/-- A frame is that of one packet only. -/
theorem IsFrame.unique {frame : ByteArray} {q : Packet} (hp : IsFrame frame p)
    (hq : IsFrame frame q) : p = q := by
  obtain ⟨pool₁, _, _, hd, -⟩ := hp
  obtain ⟨_, _, hd', -⟩ := hq.decode pool₁
  simpa using (Prod.mk.inj (hd.symm.trans hd')).1

theorem IsFrame.isCanonical {frame : ByteArray} (h : IsFrame frame p) : p.header.IsCanonical := by
  obtain ⟨pool₁, pool₁', rest', hd, -⟩ := h
  exact (Decodable.fits ⟨pool₁, .ofBytes frame, pool₁', rest', hd⟩).canonical

/-- The bytes of a packet that was read are the frame of that packet. -/
theorem Decodable.isFrame (hp : p.Decodable) : IsFrame p.frame p := by
  have hbytes : (Source.ofBytes p.frame).bytes = p.frame ++ .empty := by simp
  obtain ⟨pool', rest, hd, hrest, -⟩ := hp.fits.decode_frame .standard hbytes
  rw [hp.received_eq] at hd
  exact ⟨.standard, pool', rest, hd, hrest⟩

/-- The bytes of a packet that fits are a frame. -/
theorem Fits.exists_isFrame (hp : p.Fits) : ∃ q, IsFrame p.frame q := by
  have hbytes : (Source.ofBytes p.frame).bytes = p.frame ++ .empty := by simp
  obtain ⟨pool', rest, hd, hrest, -⟩ := hp.decode_frame .standard hbytes
  exact ⟨p.received, .standard, pool', rest, hd, hrest⟩

end Packet

end Wire

end ReplicaChain
