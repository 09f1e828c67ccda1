import Mathlib.Data.List.Basic
import ReplicaChain.Proofs.Wire.RoundTrip

/-!
# The grammar of frames

Whether a byte string begins with a frame shows in a few of its bytes: the magic byte, the extent mode
and the result must be assigned, the two declared sizes must be within the limits, and what they declare
must be there.  Every other bit pattern is meaningful.  Decoding accepts just these byte strings, and
what it took off the stream is the encoding of the packet that it gives.  In the other direction, a
packet that holds what it declares is decoded from its encoding, and from no proper beginning of it.
-/

namespace ReplicaChain

open Bytes

namespace Wire

/-! ## Assigned bytes -/

/-- An opcode is read back from its byte unless it calls an assigned byte unknown. -/
theorem Opcode.ofByte_toByte {o : Opcode}
    (h : ∀ code, o = .unknown code → code ∉ assigned.map Prod.fst) : ofByte o.toByte = o := by
  cases o with
  | unknown code =>
    have hnone : assigned.lookup code = none := by
      rw [List.lookup_eq_none_iff]
      intro entry hentry
      rw [bne_iff_ne]
      rintro rfl
      exact h entry.1 rfl (List.mem_map_of_mem hentry)
    simp [ofByte, toByte, hnone]
  | _ => rfl

theorem Opcode.isRead_ofByte (code : UInt8) :
    (ofByte code).isRead = true ↔ code ∈ [0x04, 0x05, 0x09] := by
  unfold ofByte assigned
  simp only [List.lookup_cons, List.lookup_nil]
  repeat' split
  all_goals simp_all [isRead]

theorem ResultCode.exists_ofByte_iff (code : UInt8) :
    (∃ r, ofByte code = .ok r) ↔
      code ∈ [0x00, 0xF0, 0xF3, 0xF4, 0xF5, 0xF6, 0xF7, 0xF9, 0xFC] := by
  constructor
  · rintro ⟨r, hr⟩
    rw [← toByte_of_ofByte hr]
    cases r <;> decide
  · intro h
    simp only [List.mem_cons, List.not_mem_nil, or_false] at h
    rcases h with rfl | rfl | rfl | rfl | rfl | rfl | rfl | rfl | rfl <;> exact ⟨_, rfl⟩

theorem ResultCode.eq_unexecuted_iff {code : UInt8} {r : ResultCode} (h : ofByte code = .ok r) :
    r = .unexecuted ↔ code = 0x00 := by
  rw [← toByte_of_ofByte h]
  cases r <;> decide

theorem ExtentMode.exists_ofByte_iff (code : UInt8) :
    (∃ m, ofByte code = .ok m) ↔ code = 0 ∨ code = 1 := by
  constructor
  · rintro ⟨m, hm⟩
    rw [← toByte_of_ofByte hm]
    cases m <;> decide
  · rintro (rfl | rfl) <;> exact ⟨_, rfl⟩

/-! ## Headers write back -/

namespace Header

variable {bs : List UInt8} {h : Header} {i w n : Nat}

theorem length_word (hi : i + w ≤ bs.length) : ((bs.drop i).take w).length = w := by
  rw [List.length_take, List.length_drop]
  omega

theorem encode_wordAt (hi : i + w ≤ bs.length) :
    BigEndian.encode w (wordAt bs i w) = (bs.drop i).take w :=
  BigEndian.encode_decode (length_word hi)

theorem wordAt_lt (hi : i + w ≤ bs.length) : wordAt bs i w < BigEndian.weight w := by
  simpa only [wordAt, length_word hi] using BigEndian.decode_lt ((bs.drop i).take w)

theorem toNat_wordAt_four (hi : i + 4 ≤ bs.length) :
    (UInt32.ofNat (wordAt bs i 4)).toNat = wordAt bs i 4 :=
  UInt32.toNat_ofNat_of_lt' (wordAt_lt hi)

theorem toNat_wordAt_eight (hi : i + 8 ≤ bs.length) :
    (UInt64.ofNat (wordAt bs i 8)).toNat = wordAt bs i 8 :=
  UInt64.toNat_ofNat_of_lt' (wordAt_lt hi)

theorem encode_wordAt_four (hi : i + 4 ≤ bs.length) :
    BigEndian.encode 4 (UInt32.ofNat (wordAt bs i 4)).toNat = (bs.drop i).take 4 := by
  rw [toNat_wordAt_four hi, encode_wordAt hi]

theorem encode_wordAt_eight (hi : i + 8 ≤ bs.length) :
    BigEndian.encode 8 (UInt64.ofNat (wordAt bs i 8)).toNat = (bs.drop i).take 8 := by
  rw [toNat_wordAt_eight hi, encode_wordAt hi]

theorem take_five (hl : 5 ≤ bs.length) :
    bs.take 5 = [byteAt bs 0, byteAt bs 1, byteAt bs 2, byteAt bs 3, byteAt bs 4] := by
  rcases bs with _ | ⟨b₀, _ | ⟨b₁, _ | ⟨b₂, _ | ⟨b₃, _ | ⟨b₄, bs⟩⟩⟩⟩⟩
  all_goals first | rfl | simp at hl

/-- The fields of a header that was read, by where they stand. -/
theorem fields_of_ofList (hh : ofList bs = .ok h) :
    byteAt bs 0 = magicByte ∧ ExtentMode.ofByte (byteAt bs 1) = .ok h.extentMode ∧
      ResultCode.ofByte (byteAt bs 3) = .ok h.result ∧
      h = {
        magic := magicByte
        extentMode := h.extentMode
        opcode := .ofByte (byteAt bs 2)
        result := h.result
        remaining := (byteAt bs 4).toInt8
        crc := .ofNat (wordAt bs 5 4)
        size := .ofNat (wordAt bs 9 4)
        argumentSize := .ofNat (wordAt bs 13 4)
        partition := .ofNat (wordAt bs 17 8)
        extent := .ofNat (wordAt bs 25 8)
        offset := (UInt64.ofNat (wordAt bs 33 8)).toInt64
        requestId := (UInt64.ofNat (wordAt bs 41 8)).toInt64
        startTime := (UInt64.ofNat (wordAt bs 49 8)).toInt64
        kernelOffset := .ofNat (wordAt bs 57 8) } := by
  unfold ofList at hh
  split at hh
  · cases hh
  · rename_i hmagic
    split at hh
    · cases hh
    · rename_i hmode
      split at hh
      · cases hh
      · rename_i hresult
        cases hh
        exact ⟨Decidable.not_not.mp hmagic, hmode, hresult, rfl⟩

/-- A header that was read writes back to the bytes that it was read from. -/
theorem encodeList_of_ofList (hl : bs.length = byteSize) (hh : ofList bs = .ok h) :
    h.encodeList = bs := by
  replace hl : bs.length = 65 := hl
  obtain ⟨hmagic, hmode, hresult, hfields⟩ := fields_of_ofList hh
  -- The fields lie side by side without gaps; each writes back to its own bytes.
  calc
    h.encodeList = bs.take 5 ++ (bs.drop 5).take 4 ++ (bs.drop 9).take 4 ++ (bs.drop 13).take 4 ++
        (bs.drop 17).take 8 ++ (bs.drop 25).take 8 ++ (bs.drop 33).take 8 ++ (bs.drop 41).take 8 ++
        (bs.drop 49).take 8 ++ (bs.drop 57).take 8 := by
      rw [hfields, encodeList, take_five (by omega), hmagic, ← ExtentMode.toByte_of_ofByte hmode,
        ← ResultCode.toByte_of_ofByte hresult]
      simp only [Opcode.toByte_ofByte, UInt64.toUInt64_toInt64, UInt8.toUInt8_toInt8]
      simp (disch := omega) only [encode_wordAt_four, encode_wordAt_eight]
    _ = bs.take 65 := by simp only [← List.take_add, Nat.reduceAdd]
    _ = bs := List.take_of_length_le (by omega)

theorem exists_ofList_iff :
    (∃ h, ofList bs = .ok h) ↔
      byteAt bs 0 = magicByte ∧ (byteAt bs 1 = 0 ∨ byteAt bs 1 = 1) ∧
        byteAt bs 3 ∈ [0x00, 0xF0, 0xF3, 0xF4, 0xF5, 0xF6, 0xF7, 0xF9, 0xFC] := by
  rw [← ExtentMode.exists_ofByte_iff, ← ResultCode.exists_ofByte_iff]
  constructor
  · rintro ⟨h, hh⟩
    obtain ⟨hmagic, hmode, hresult, -⟩ := fields_of_ofList hh
    exact ⟨hmagic, ⟨_, hmode⟩, ⟨_, hresult⟩⟩
  · rintro ⟨hmagic, ⟨m, hm⟩, ⟨r, hr⟩⟩
    rw [ofList, if_neg (not_not_intro hmagic), hm]
    simp only [hr]
    exact ⟨_, rfl⟩

theorem byteAt_take (hi : i < n) : byteAt (bs.take n) i = byteAt bs i := by
  rw [byteAt, byteAt, List.getElem?_take_of_lt hi]

theorem wordAt_take (hi : i + w ≤ n) : wordAt (bs.take n) i w = wordAt bs i w := by
  rw [wordAt, wordAt, List.drop_take, List.take_take, Nat.min_eq_left (by omega)]

theorem toList_take (n : Nat) (b : ByteArray) : (take n b).data.toList = b.data.toList.take n := by
  rw [take, ByteArray.data_extract, Array.toList_extract, List.extract_eq_take_drop, List.drop_zero,
    Nat.sub_zero]

theorem parse_eq_ok_iff {b : ByteArray} :
    parse b = .ok h ↔ byteSize ≤ b.size ∧ ofList (b.data.toList.take byteSize) = .ok h := by
  unfold parse
  rw [toList_take]
  by_cases hsize : b.size < byteSize
  · rw [if_pos hsize]
    simp [Nat.not_le.mpr hsize]
  · rw [if_neg hsize]
    simp [Nat.le_of_not_lt hsize]

/-- A header that was read off the front of a byte string writes back to that front. -/
theorem encode_of_parse {b : ByteArray} (hh : parse b = .ok h) : h.encode = take byteSize b := by
  obtain ⟨hsize, hlist⟩ := parse_eq_ok_iff.mp hh
  have hlength : (b.data.toList.take byteSize).length = byteSize := by
    rw [List.length_take, Array.length_toList]
    exact Nat.min_eq_left hsize
  apply ByteArray.ext
  rw [encode, encodeList_of_ofList hlength hlist, List.data_toByteArray, ← toList_take,
    Array.toArray_toList]

end Header

/-! ## The grammar -/

def declaredArgument (b : ByteArray) : Nat :=
  Header.wordAt b.data.toList 13 4

/-- Whether a byte string declares a payload that is still to come: it is a read without a result. -/
def IsDeferred (b : ByteArray) : Prop :=
  Header.byteAt b.data.toList 2 ∈ [0x04, 0x05, 0x09] ∧ Header.byteAt b.data.toList 3 = 0x00

instance (b : ByteArray) : Decidable (IsDeferred b) :=
  inferInstanceAs (Decidable (_ ∧ _))

def declaredPayload (b : ByteArray) : Nat :=
  if IsDeferred b then 0 else Header.wordAt b.data.toList 9 4

/-- A byte string begins with a frame. -/
structure BeginsWithFrame (b : ByteArray) : Prop where
  header : Header.byteSize ≤ b.size
  magic : Header.byteAt b.data.toList 0 = 0xFF
  mode : Header.byteAt b.data.toList 1 = 0 ∨ Header.byteAt b.data.toList 1 = 1
  result : Header.byteAt b.data.toList 3 ∈
    [0x00, 0xF0, 0xF3, 0xF4, 0xF5, 0xF6, 0xF7, 0xF9, 0xFC]
  argument_limit : declaredArgument b ≤ maxArgumentSize
  payload_limit : declaredPayload b ≤ maxPayloadSize
  complete : Header.byteSize + declaredArgument b + declaredPayload b ≤ b.size

theorem exists_parse_iff {b : ByteArray} :
    (∃ h, Header.parse b = .ok h) ↔
      Header.byteSize ≤ b.size ∧ Header.byteAt b.data.toList 0 = 0xFF ∧
        (Header.byteAt b.data.toList 1 = 0 ∨ Header.byteAt b.data.toList 1 = 1) ∧
        Header.byteAt b.data.toList 3 ∈
          [0x00, 0xF0, 0xF3, 0xF4, 0xF5, 0xF6, 0xF7, 0xF9, 0xFC] := by
  simp only [Header.parse_eq_ok_iff, exists_and_left, Header.exists_ofList_iff]
  rw [Header.byteAt_take (by decide), Header.byteAt_take (by decide),
    Header.byteAt_take (by decide)]
  rfl

/-- What a header declares is what its bytes declare. -/
theorem declared_of_parse {b : ByteArray} {h : Header} (hh : Header.parse b = .ok h) :
    h.argumentSize.toNat = declaredArgument b ∧ h.payloadSize = declaredPayload b := by
  obtain ⟨hsize, hlist⟩ := Header.parse_eq_ok_iff.mp hh
  obtain ⟨-, -, hresult, hfields⟩ := Header.fields_of_ofList hlist
  have hlength : (b.data.toList.take Header.byteSize).length = 65 := by
    rw [List.length_take, Array.length_toList]
    exact Nat.min_eq_left hsize
  have hargument : h.argumentSize.toNat = declaredArgument b := by
    rw [hfields, declaredArgument, Header.toNat_wordAt_four (by omega),
      Header.wordAt_take (by decide)]
  have hword : h.size.toNat = Header.wordAt b.data.toList 9 4 := by
    rw [hfields, Header.toNat_wordAt_four (by omega), Header.wordAt_take (by decide)]
  have hdefers : h.defersPayload = true ↔ IsDeferred b := by
    rw [Header.byteAt_take (by decide)] at hresult
    rw [Header.defersPayload, Bool.and_eq_true, decide_eq_true_iff,
      ResultCode.eq_unexecuted_iff hresult, hfields, Opcode.isRead_ofByte,
      Header.byteAt_take (by decide), IsDeferred]
  exact ⟨hargument, by simp only [Header.payloadSize, declaredPayload, hdefers, hword]⟩

namespace Packet

variable {p : Packet} {pool pool' : BufferPool} {s rest : Source} {b t : ByteArray}

/-! ## What decoding takes off a stream -/

theorem bytes_of_decodeHeader {h : Header} (hd : decodeHeader pool s = (.ok h, pool', rest)) :
    s.bytes = h.encode ++ rest.bytes := by
  rcases hr : s.read Header.byteSize with ⟨_ | bytes, r⟩
  · simp [decodeHeader_of_read_error hr] at hd
  · simp only [decodeHeader_of_read hr, Prod.mk.injEq] at hd
    obtain ⟨hparse, -, rfl⟩ := hd
    have hsize : bytes.size = Header.byteSize := (Source.size_of_read hr).1
    rw [(Source.bytes_of_read hr).1, Header.encode_of_parse hparse,
      take_of_size_le (Nat.le_of_eq hsize)]

theorem bytes_of_decodeArgument {h : Header} (hd : decodeArgument h s = (.ok b, rest)) :
    s.bytes = take h.argumentSize.toNat b ++ rest.bytes := by
  have hsize : b.size = h.argumentSize.toNat := (argument_of_decodeArgument hd).1
  unfold decodeArgument at hd
  dsimp only at hd
  split at hd
  · simp at hd
  · rw [(Source.bytes_of_read hd).1, take_of_size_le (Nat.le_of_eq hsize)]

theorem bytes_of_decodePayload {h : Header} {data : Buffer}
    (hd : decodePayload h pool s = (.ok data, pool', rest)) :
    s.bytes = take h.payloadSize data.bytes ++ rest.bytes := by
  have hsize : data.bytes.size = h.payloadSize := (data_of_decodePayload hd).1
  rw [take_of_size_le (Nat.le_of_eq hsize)]
  by_cases hlimit : maxPayloadSize < h.payloadSize
  · simp [decodePayload, hlimit] at hd
  · rcases hr : s.read h.payloadSize with ⟨_ | bytes, r⟩
    · simp [decodePayload_of_read_error hlimit hr] at hd
    · simp only [decodePayload_of_read hlimit hr, Prod.mk.injEq, Except.ok.injEq] at hd
      obtain ⟨rfl, -, rfl⟩ := hd
      exact (Source.bytes_of_read hr).1

/-- What decoding takes off a stream is the frame of the packet that it gives. -/
theorem bytes_of_decode (hd : decode pool s = (.ok p, pool', rest)) :
    s.bytes = p.frame ++ rest.bytes := by
  obtain ⟨pool₁, s₁, s₂, hheader, hargument, hpayload⟩ := decode_ok_iff.mp hd
  rw [bytes_of_decodeHeader hheader, bytes_of_decodeArgument hargument,
    bytes_of_decodePayload hpayload]
  simp only [frame, ByteArray.append_assoc]

/-! ## The grammar of what can be read -/

theorem parse_frame (hp : p.header.IsCanonical) :
    Header.parse (p.frame ++ t) = .ok p.header := by
  have htake : take Header.byteSize (p.frame ++ t) = p.header.encode := by
    rw [frame, ByteArray.append_assoc, ByteArray.append_assoc, ← Header.size_encode p.header]
    exact (take_drop_append _ _).1
  rw [Header.parse_eq_ok_iff, ← Header.toList_take, htake, Header.encode, List.data_toByteArray]
  refine ⟨?_, Header.ofList_encodeList hp⟩
  simp only [frame, ByteArray.size_append, Header.size_encode]
  omega

theorem size_frame (hp : p.Fits) :
    p.frame.size = Header.byteSize + p.header.argumentSize.toNat + p.header.payloadSize := by
  have hargument := Nat.min_eq_left hp.argument_le
  have hpayload : min p.header.payloadSize p.data.bytes.size = p.header.payloadSize :=
    Nat.min_eq_left hp.payload_le
  rw [frame, ByteArray.size_append, ByteArray.size_append, Header.size_encode, size_take, size_take,
    hargument, hpayload]

/-- The frame of a packet that fits begins with a frame, whatever follows it. -/
theorem Fits.beginsWithFrame (hp : p.Fits) (t : ByteArray) : BeginsWithFrame (p.frame ++ t) := by
  have hparse := parse_frame (t := t) hp.canonical
  obtain ⟨hargument, hpayload⟩ := declared_of_parse hparse
  obtain ⟨hheader, hmagic, hmode, hresult⟩ := exists_parse_iff.mp ⟨_, hparse⟩
  refine ⟨hheader, hmagic, hmode, hresult, ?_, ?_, ?_⟩
  · exact hargument ▸ hp.argument_limit
  · exact hpayload ▸ hp.payload_limit
  · rw [← hargument, ← hpayload, ← size_frame hp, ByteArray.size_append]
    exact Nat.le_add_right _ _

/-- A byte string that begins with a frame begins with the frame of a packet that fits. -/
theorem exists_fits_of_beginsWithFrame (hb : BeginsWithFrame b) :
    ∃ (p : Packet) (t : ByteArray), p.Fits ∧ b = p.frame ++ t := by
  obtain ⟨h, hparse⟩ := exists_parse_iff.mpr ⟨hb.header, hb.magic, hb.mode, hb.result⟩
  obtain ⟨hargument, hpayload⟩ := declared_of_parse hparse
  let afterHeader := drop Header.byteSize b
  let afterArgument := drop h.argumentSize.toNat afterHeader
  let p : Packet :=
    ⟨h, take h.argumentSize.toNat afterHeader, .detached (take h.payloadSize afterArgument)⟩
  have hcomplete : Header.byteSize + h.argumentSize.toNat + h.payloadSize ≤ b.size := by
    rw [hargument, hpayload]
    exact hb.complete
  have hargumentSize : p.argument.size = h.argumentSize.toNat := by
    simp only [p, afterHeader, size_take, size_drop]
    omega
  have hdataSize : p.data.size = h.payloadSize := by
    simp only [p, afterArgument, afterHeader, Buffer.size, Buffer.detached, size_take, size_drop]
    omega
  refine ⟨p, drop h.payloadSize afterArgument, ?_, ?_⟩
  · exact {
      canonical := Header.isCanonical_of_parse hparse
      argument_le := Nat.le_of_eq hargumentSize.symm
      argument_limit := hargument ▸ hb.argument_limit
      payload_le := Nat.le_of_eq hdataSize.symm
      payload_limit := hpayload ▸ hb.payload_limit }
  · calc
      b = take Header.byteSize b ++ (take h.argumentSize.toNat afterHeader ++
          (take h.payloadSize afterArgument ++ drop h.payloadSize afterArgument)) := by
        rw [take_append_drop, take_append_drop, take_append_drop]
      _ = h.encode ++ (take h.argumentSize.toNat p.argument ++
          (take h.payloadSize p.data.bytes ++ drop h.payloadSize afterArgument)) := by
        rw [Header.encode_of_parse hparse, take_of_size_le (Nat.le_of_eq hargumentSize),
          take_of_size_le (Nat.le_of_eq hdataSize)]
        rfl
      _ = p.frame ++ drop h.payloadSize afterArgument := by
        simp only [frame, ByteArray.append_assoc, p]

/-- Decoding succeeds just on the byte strings that begin with a frame, whatever the pool holds, however
the bytes are cut and however the stream ends.  The bytes that it takes are the encoding of the packet
that it gives, which holds just what it declares. -/
theorem decode_ok_iff_beginsWithFrame (pool : BufferPool) (s : Source) :
    ((∃ p, (decode pool s).1 = .ok p) ↔ BeginsWithFrame s.bytes) ∧
      ∀ p, (decode pool s).1 = .ok p →
        ∃ frame, p.encode = .ok frame ∧ s.bytes = frame ++ (decode pool s).2.2.bytes ∧
          p.argument.size = p.header.argumentSize.toNat ∧
          p.data.size = if p.header.defersPayload then 0 else p.header.size.toNat := by
  have hwhole {p : Packet} (hp : (decode pool s).1 = .ok p) :
      decode pool s = (.ok p, (decode pool s).2.1, (decode pool s).2.2) := Prod.ext hp rfl
  refine ⟨⟨?_, fun hb ↦ ?_⟩, fun p hp ↦ ?_⟩
  · rintro ⟨p, hp⟩
    rw [bytes_of_decode (hwhole hp)]
    exact (decodable_of_decode hp).fits.beginsWithFrame _
  · obtain ⟨p, t, hp, hs⟩ := exists_fits_of_beginsWithFrame hb
    obtain ⟨pool', rest, hd, -⟩ := hp.decode_frame pool hs
    exact ⟨p.received, by rw [hd]⟩
  · have hdecodable : p.Decodable := decodable_of_decode hp
    have hfits := hdecodable.fits
    exact ⟨p.frame, encode_eq_frame hfits.argument_le hfits.payload_le, bytes_of_decode (hwhole hp),
      hdecodable.size_argument, hdecodable.size_data⟩

/-- A read that asks for four kilobytes begins a stream although no payload follows.  What comes after
its header is left for the next packet. -/
theorem decode_unanswered_read :
    let p := Packet.read 0 1 2 3 0 4096
    let b := p.header.encode ++ zeros 16
    BeginsWithFrame b ∧
      ∃ frame, p.encode = .ok frame ∧ b = frame ++ (decode .standard (.ofBytes b)).2.2.bytes ∧
        p.argument.size = 0 ∧ p.data.size = 0 := by
  intro p b
  have hd : (decode .standard (.ofBytes b)).1 = .ok p := by decide +kernel
  obtain ⟨hiff, hconsumed⟩ := decode_ok_iff_beginsWithFrame .standard (.ofBytes b)
  have hbegins : BeginsWithFrame (Source.ofBytes b).bytes := hiff.mp ⟨p, hd⟩
  obtain ⟨frame, hencode, hbytes, hargument, hdata⟩ := hconsumed p hd
  rw [Source.bytes_ofBytes] at hbegins hbytes
  have hargumentSize : p.argument.size = 0 := hargument
  have hdataSize : p.data.size = 0 := hdata
  exact ⟨hbegins, frame, hencode, hbytes, hargumentSize, hdataSize⟩

/-! ## Decoding an encoded packet -/

/-- A packet with the magic byte that names no assigned opcode unknown, that holds what it declares and
declares no more than a reader accepts, is encoded.  From its frame, whatever follows and however the
stream is cut, a reader gets the header and just the declared bytes of the argument and of the payload,
and the stream is left where the frame ends.  A stream that is closed before the frame is complete is
refused for that reason. -/
theorem decode_encoded_frame {p : Packet} (hmagic : p.header.magic = 0xFF)
    (hopcode : ∀ code, p.header.opcode = .unknown code → code ∉ Opcode.assigned.map Prod.fst)
    (hargument : p.header.argumentSize.toNat ≤ p.argument.size)
    (hargumentLimit : p.header.argumentSize.toNat ≤ maxArgumentSize)
    (hpayload : p.header.defersPayload = false →
      p.header.size.toNat ≤ p.data.size ∧ p.header.size.toNat ≤ maxPayloadSize) :
    ∃ frame, p.encode = .ok frame ∧ ∀ pool : BufferPool,
      (∀ (s : Source) (t : ByteArray), s.bytes = frame ++ t →
        ∃ q pool' rest, decode pool s = (.ok q, pool', rest) ∧ q.header = p.header ∧
          q.argument = take p.header.argumentSize.toNat p.argument ∧
          q.data.bytes =
            (if p.header.defersPayload then .empty else take p.header.size.toNat p.data.bytes) ∧
          rest.bytes = t ∧ rest.ending = s.ending) ∧
      ∀ (s : Source) (t : ByteArray), frame = s.bytes ++ t → t ≠ .empty → s.ending = .closed →
        (decode pool s).1 = .error (.io ⟨.unexpectedEof, "early eof"⟩) := by
  have hsizes : p.header.payloadSize ≤ p.data.size ∧ p.header.payloadSize ≤ maxPayloadSize := by
    unfold Header.payloadSize
    split
    · exact ⟨Nat.zero_le _, Nat.zero_le _⟩
    · rename_i hdefers
      exact hpayload (by simpa using hdefers)
  have hfits : p.Fits :=
    ⟨⟨hmagic, Opcode.ofByte_toByte hopcode⟩, hargument, hargumentLimit, hsizes.1, hsizes.2⟩
  refine ⟨p.frame, encode_eq_frame hargument hsizes.1, fun pool ↦ ⟨fun s t hs ↦ ?_, ?_⟩⟩
  · obtain ⟨pool', rest, hd, hrest, hending⟩ := hfits.decode_frame pool hs
    refine ⟨p.received, pool', rest, hd, rfl, rfl, ?_, hrest, hending⟩
    simp only [received, Header.payloadSize]
    split
    · exact ByteArray.size_eq_zero_iff.mp (by simp)
    · rfl
  · intro s t hs ht hclosed
    have hwhole : (Source.ofBytes p.frame).bytes = p.frame ++ .empty := by simp
    obtain ⟨pool', rest, hd, hrest, -⟩ := hfits.decode_frame pool hwhole
    have hextends : s.Extends t .closed (.ofBytes p.frame) :=
      ⟨by rw [Source.bytes_ofBytes, hs], rfl⟩
    have hsize : t.size ≠ 0 := mt ByteArray.size_eq_zero_iff.mp ht
    have hshort := decode_of_prefix hextends hsize hd (by simp [hrest])
    rw [hshort, hclosed]
    rfl

/-- A packet with an unassigned opcode and a negative count of followers, which holds more than it
declares, is read back from two pieces of its frame with just the declared bytes.  The first piece alone
is not enough. -/
theorem decode_encoded_unknown :
    let h := { Header.blank with
      opcode := .unknown 0x06, result := .again, remaining := -1, size := 3, argumentSize := 2 }
    let p : Packet := ⟨h, ofText "0:a", .detached (ofText "hello")⟩
    ∃ frame, p.encode = .ok frame ∧
      (∃ q pool' rest,
        decode .standard ⟨[take 10 frame, drop 10 frame ++ zeros 7], .closed⟩ =
            (.ok q, pool', rest) ∧
          q.header = h ∧ q.argument = ofText "0:" ∧ q.data.bytes = ofText "hel" ∧
          rest.bytes = zeros 7) ∧
      (decode .standard ⟨[take 10 frame], .closed⟩).1 =
        .error (.io ⟨.unexpectedEof, "early eof"⟩) := by
  intro h p
  have hopcode : ∀ code, p.header.opcode = .unknown code →
      code ∉ Opcode.assigned.map Prod.fst := by
    intro code hcode
    cases hcode
    decide
  obtain ⟨frame, hencode, hread⟩ := decode_encoded_frame (p := p) rfl hopcode (by decide) (by decide)
    (fun _ ↦ by decide)
  obtain ⟨hwhole, hcut⟩ := hread .standard
  obtain ⟨q, pool', rest, hd, hheader, hargument, hdata, hrest, -⟩ :=
    hwhole ⟨[take 10 frame, drop 10 frame ++ zeros 7], .closed⟩ (zeros 7) (by
      simp [Source.bytes, ← ByteArray.append_assoc, take_append_drop])
  have hargument' : q.argument = ofText "0:" := by
    rw [hargument]
    decide
  have hdata' : q.data.bytes = ofText "hel" := by
    rw [hdata]
    decide
  refine ⟨frame, hencode, ⟨q, pool', rest, hd, hheader, hargument', hdata', hrest⟩, ?_⟩
  have hsize : p.encode.map ByteArray.size = .ok 70 := by decide
  rw [hencode] at hsize
  have hsize' : frame.size = 70 := by simpa [Except.map] using hsize
  refine hcut ⟨[take 10 frame], .closed⟩ (drop 10 frame) ?_ ?_ rfl
  · simp [Source.bytes, take_append_drop]
  · intro hempty
    have := congrArg ByteArray.size hempty
    simp [hsize'] at this

end Packet

end Wire

end ReplicaChain
