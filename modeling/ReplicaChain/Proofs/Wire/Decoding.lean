import ReplicaChain.Proofs.Stream.Reading
import ReplicaChain.Wire.Frame

/-!
# What decoding depends on

A packet is decoded from the bytes at the front of a source.  Neither the cuts of the source, nor
what follows the frame, nor the buffers that happen to lie in the pool make a difference.  A refusal
is final as well: more bytes help only a source that was too short.
-/

namespace ReplicaChain.Wire.Packet

open Source (Extends Same)

variable {pool pool' : BufferPool} {s s' rest : Source} {ending : Ending} {t : ByteArray}

/-! ## What follows the frame -/

theorem decodeHeader_extends {h : Header} (hs : s.Extends t ending s')
    (hd : decodeHeader pool s = (.ok h, pool', rest)) :
    ∃ rest', decodeHeader pool s' = (.ok h, pool', rest') ∧ rest.Extends t ending rest' := by
  rcases hr : s.read Header.byteSize with ⟨_ | bytes, r⟩
  · simp [decodeHeader, hr] at hd
  · obtain ⟨rest', hr', hrest⟩ := hs.read hr
    rw [decodeHeader_of_read hr] at hd
    obtain ⟨hp, hpool, rfl⟩ := by simpa using hd
    exact ⟨rest', by rw [decodeHeader_of_read hr', hp, hpool], hrest⟩

theorem decodeArgument_extends {h : Header} {b : ByteArray} (hs : s.Extends t ending s')
    (hd : decodeArgument h s = (.ok b, rest)) :
    ∃ rest', decodeArgument h s' = (.ok b, rest') ∧ rest.Extends t ending rest' := by
  unfold decodeArgument at hd ⊢
  dsimp only at hd ⊢
  split at hd
  · simp at hd
  · rename_i hsize
    rw [if_neg hsize]
    exact hs.read hd

theorem decodePayload_extends {h : Header} {b : Buffer} (hs : s.Extends t ending s')
    (hd : decodePayload h pool s = (.ok b, pool', rest)) :
    ∃ rest', decodePayload h pool s' = (.ok b, pool', rest') ∧ rest.Extends t ending rest' := by
  by_cases hlimit : maxPayloadSize < h.payloadSize
  · simp [decodePayload, hlimit] at hd
  · rcases hr : s.read h.payloadSize with ⟨_ | bytes, r⟩
    · simp [decodePayload, hlimit, hr] at hd
    · obtain ⟨rest', hr', hrest⟩ := hs.read hr
      rw [decodePayload_of_read hlimit hr] at hd
      obtain ⟨hp, hpool, rfl⟩ := by simpa using hd
      exact ⟨rest', by rw [decodePayload_of_read hlimit hr', hp, hpool], hrest⟩

theorem ending_of_decodeHeader {h : Header} (hd : decodeHeader pool s = (.ok h, pool', rest)) :
    rest.ending = s.ending := by
  obtain ⟨rest', hd', hr⟩ := decodeHeader_extends (.refl s) hd
  obtain rfl : rest = rest' := by simpa [hd] using hd'
  exact hr.ending_eq

theorem ending_of_decodeArgument {h : Header} {b : ByteArray}
    (hd : decodeArgument h s = (.ok b, rest)) : rest.ending = s.ending := by
  obtain ⟨rest', hd', hr⟩ := decodeArgument_extends (.refl s) hd
  obtain rfl : rest = rest' := by simpa [hd] using hd'
  exact hr.ending_eq

/-- The three steps of a successful decoding. -/
theorem decode_ok_iff {p : Packet} :
    decode pool s = (.ok p, pool', rest) ↔
      ∃ pool₁ s₁ s₂, decodeHeader pool s = (.ok p.header, pool₁, s₁) ∧
        decodeArgument p.header s₁ = (.ok p.argument, s₂) ∧
        decodePayload p.header pool₁ s₂ = (.ok p.data, pool', rest) := by
  constructor
  · intro hd
    unfold decode at hd
    rcases hh : decodeHeader pool s with ⟨_ | h, pool₁, s₁⟩
    · simp [hh] at hd
    · rcases ha : decodeArgument h s₁ with ⟨_ | b, s₂⟩
      · simp [hh, ha] at hd
      · rcases hp : decodePayload h pool₁ s₂ with ⟨_ | data, pool₂, s₃⟩
        · simp [hh, ha, hp] at hd
        · simp only [hh, ha, hp, Prod.mk.injEq, Except.ok.injEq] at hd
          obtain ⟨rfl, rfl, rfl⟩ := hd
          exact ⟨pool₁, s₁, s₂, rfl, ha, hp⟩
  · rintro ⟨pool₁, s₁, s₂, hh, ha, hp⟩
    simp [decode, hh, ha, hp]

/-- The packet at the front of a source is the same whatever comes after it. -/
theorem decode_extends {p : Packet} (hs : s.Extends t ending s')
    (hd : decode pool s = (.ok p, pool', rest)) :
    ∃ rest', decode pool s' = (.ok p, pool', rest') ∧ rest.Extends t ending rest' := by
  obtain ⟨pool₁, s₁, s₂, hh, ha, hp⟩ := decode_ok_iff.mp hd
  obtain ⟨s₁', hh', hs₁⟩ := decodeHeader_extends hs hh
  obtain ⟨s₂', ha', hs₂⟩ := decodeArgument_extends hs₁ ha
  obtain ⟨rest', hp', hrest⟩ := decodePayload_extends hs₂ hp
  exact ⟨rest', decode_ok_iff.mpr ⟨pool₁, s₁', s₂', hh', ha', hp'⟩, hrest⟩

/-! ## What is left -/

theorem leftOf_decodeHeader (pool : BufferPool) (s : Source) :
    s.LeftOf (decodeHeader pool s).2.2 := by
  have h := Source.leftOf_read Header.byteSize s
  unfold decodeHeader
  generalize s.read Header.byteSize = r at h ⊢
  rcases r with ⟨_ | bytes, rest⟩ <;> exact h

theorem leftOf_decodeArgument (h : Header) (s : Source) : s.LeftOf (decodeArgument h s).2 := by
  unfold decodeArgument
  dsimp only
  split
  · exact .refl s
  · exact Source.leftOf_read _ s

theorem leftOf_decodePayload (h : Header) (pool : BufferPool) (s : Source) :
    s.LeftOf (decodePayload h pool s).2.2 := by
  have hread := Source.leftOf_read h.payloadSize s
  unfold decodePayload
  split
  · exact .refl s
  · generalize s.read h.payloadSize = r at hread ⊢
    rcases r with ⟨_ | bytes, rest⟩ <;> exact hread

/-- Decoding takes something off the front of a source, whether it succeeds or not. -/
theorem leftOf_decode (pool : BufferPool) (s : Source) : s.LeftOf (decode pool s).2.2 := by
  have hheader := leftOf_decodeHeader pool s
  unfold decode
  generalize decodeHeader pool s = header at hheader ⊢
  obtain ⟨_ | h, pool₁, s₁⟩ := header
  · exact hheader
  · have hargument := hheader.trans (leftOf_decodeArgument h s₁)
    dsimp only
    generalize decodeArgument h s₁ = argument at hargument ⊢
    obtain ⟨_ | b, s₂⟩ := argument
    · exact hargument
    · have hpayload := hargument.trans (leftOf_decodePayload h pool₁ s₂)
      dsimp only
      generalize decodePayload h pool₁ s₂ = payload at hpayload ⊢
      obtain ⟨_ | data, pool₂, s₃⟩ := payload <;> exact hpayload

/-! ## The cuts -/

theorem decodeHeader_same (pool : BufferPool) (hs : s.Same s') :
    (decodeHeader pool s').1 = (decodeHeader pool s).1 ∧
      (decodeHeader pool s').2.1 = (decodeHeader pool s).2.1 ∧
      (decodeHeader pool s).2.2.Same (decodeHeader pool s').2.2 := by
  obtain ⟨hread, hrest⟩ := hs.read Header.byteSize
  rcases hr : s.read Header.byteSize with ⟨r, rest⟩
  rcases hr' : s'.read Header.byteSize with ⟨r', rest'⟩
  rw [hr, hr'] at hread hrest
  obtain rfl : r' = r := hread
  cases r' with
  | error fault =>
    rw [decodeHeader_of_read_error hr, decodeHeader_of_read_error hr', hs.bytes_eq]
    exact ⟨rfl, rfl, hrest⟩
  | ok bytes =>
    rw [decodeHeader_of_read hr, decodeHeader_of_read hr']
    exact ⟨rfl, rfl, hrest⟩

theorem decodeArgument_same (hs : s.Same s') (h : Header) :
    (decodeArgument h s').1 = (decodeArgument h s).1 ∧
      (decodeArgument h s).2.Same (decodeArgument h s').2 := by
  unfold decodeArgument
  dsimp only
  split
  · exact ⟨rfl, hs⟩
  · exact hs.read _

theorem decodePayload_same (pool : BufferPool) (hs : s.Same s') (h : Header) :
    (decodePayload h pool s').1 = (decodePayload h pool s).1 ∧
      (decodePayload h pool s').2.1 = (decodePayload h pool s).2.1 ∧
      (decodePayload h pool s).2.2.Same (decodePayload h pool s').2.2 := by
  by_cases hlimit : maxPayloadSize < h.payloadSize
  · simp only [decodePayload, if_pos hlimit]
    exact ⟨trivial, trivial, hs⟩
  obtain ⟨hread, hrest⟩ := hs.read h.payloadSize
  rcases hr : s.read h.payloadSize with ⟨r, rest⟩
  rcases hr' : s'.read h.payloadSize with ⟨r', rest'⟩
  rw [hr, hr'] at hread hrest
  obtain rfl : r' = r := hread
  cases r' with
  | error fault =>
    rw [decodePayload_of_read_error hlimit hr, decodePayload_of_read_error hlimit hr', hs.bytes_eq]
    exact ⟨rfl, rfl, hrest⟩
  | ok bytes =>
    rw [decodePayload_of_read hlimit hr, decodePayload_of_read hlimit hr']
    exact ⟨rfl, rfl, hrest⟩

/-- Decoding has the same outcome on sources that deliver the same. -/
theorem decode_same (pool : BufferPool) (hs : s.Same s') :
    (decode pool s').1 = (decode pool s).1 ∧ (decode pool s').2.1 = (decode pool s).2.1 ∧
      (decode pool s).2.2.Same (decode pool s').2.2 := by
  unfold decode
  obtain ⟨hh, hpool₁, hs₁⟩ := decodeHeader_same pool hs
  generalize decodeHeader pool s = x, decodeHeader pool s' = x' at hh hpool₁ hs₁ ⊢
  obtain ⟨h, pool₁, s₁⟩ := x
  obtain ⟨h', pool₁', s₁'⟩ := x'
  cases hh
  cases hpool₁
  cases h with
  | error fault => exact ⟨rfl, rfl, hs₁⟩
  | ok h =>
    obtain ⟨ha, hs₂⟩ := decodeArgument_same hs₁ h
    dsimp only at ha hs₂ ⊢
    generalize decodeArgument h s₁ = y, decodeArgument h s₁' = y' at ha hs₂ ⊢
    obtain ⟨a, s₂⟩ := y
    obtain ⟨a', s₂'⟩ := y'
    cases ha
    cases a with
    | error fault => exact ⟨rfl, rfl, hs₂⟩
    | ok a =>
      obtain ⟨hp, hpool₂, hs₃⟩ := decodePayload_same pool₁ hs₂ h
      dsimp only at hp hpool₂ hs₃ ⊢
      generalize decodePayload h pool₁ s₂ = z, decodePayload h pool₁ s₂' = z' at hp hpool₂ hs₃ ⊢
      obtain ⟨d, pool₂, s₃⟩ := z
      obtain ⟨d', pool₂', s₃'⟩ := z'
      cases hp
      cases hpool₂
      cases d <;> exact ⟨rfl, rfl, hs₃⟩

/-! ## The pool -/

theorem decodeHeader_pool (pool₁ pool₂ : BufferPool) (s : Source) :
    (decodeHeader pool₁ s).1 = (decodeHeader pool₂ s).1 ∧
      (decodeHeader pool₁ s).2.2 = (decodeHeader pool₂ s).2.2 := by
  rcases hr : s.read Header.byteSize with ⟨fault | bytes, rest⟩
  · rw [decodeHeader_of_read_error hr, decodeHeader_of_read_error hr]
    exact ⟨rfl, rfl⟩
  · rw [decodeHeader_of_read hr, decodeHeader_of_read hr]
    exact ⟨rfl, rfl⟩

theorem home_payloadBuffer (h : Header) (pool : BufferPool) :
    (payloadBuffer h pool).1.home =
      if h.opcode = .write ∧ h.payloadSize = blockSize then some .block else none := by
  unfold payloadBuffer
  split <;> rfl

theorem decodePayload_pool (h : Header) (pool₁ pool₂ : BufferPool) (s : Source) :
    (decodePayload h pool₁ s).1 = (decodePayload h pool₂ s).1 ∧
      (decodePayload h pool₁ s).2.2 = (decodePayload h pool₂ s).2.2 := by
  by_cases hlimit : maxPayloadSize < h.payloadSize
  · simp only [decodePayload, if_pos hlimit, and_self]
  · rcases hr : s.read h.payloadSize with ⟨fault | bytes, rest⟩
    · rw [decodePayload_of_read_error hlimit hr, decodePayload_of_read_error hlimit hr]
      exact ⟨rfl, rfl⟩
    · rw [decodePayload_of_read hlimit hr, decodePayload_of_read hlimit hr]
      simp only [Buffer.fill, home_payloadBuffer, and_self]

/-- What is decoded, and how much of the source it takes, does not depend on the pool. -/
theorem decode_pool (pool₁ pool₂ : BufferPool) (s : Source) :
    (decode pool₁ s).1 = (decode pool₂ s).1 ∧ (decode pool₁ s).2.2 = (decode pool₂ s).2.2 := by
  unfold decode
  obtain ⟨hh, hs₁⟩ := decodeHeader_pool pool₁ pool₂ s
  generalize decodeHeader pool₁ s = x, decodeHeader pool₂ s = x' at hh hs₁ ⊢
  obtain ⟨h, pool₃, s₁⟩ := x
  obtain ⟨h', pool₄, s₁'⟩ := x'
  cases hh
  cases hs₁
  cases h with
  | error fault => exact ⟨rfl, rfl⟩
  | ok h =>
    dsimp only
    rcases decodeArgument h s₁ with ⟨_ | a, s₂⟩
    · exact ⟨rfl, rfl⟩
    · obtain ⟨hp, hs₃⟩ := decodePayload_pool h pool₃ pool₄ s₂
      dsimp only at hp hs₃ ⊢
      generalize decodePayload h pool₃ s₂ = z, decodePayload h pool₄ s₂ = z' at hp hs₃ ⊢
      obtain ⟨d, pool₅, s₃⟩ := z
      obtain ⟨d', pool₆, s₃'⟩ := z'
      cases hp
      cases hs₃
      cases d <;> exact ⟨rfl, rfl⟩

/-- What is decoded with one pool is decoded with any other. -/
theorem exists_decode_eq (pool₂ : BufferPool) {pool₁ buffers : BufferPool} {s rest : Source}
    {result : Except Fault Packet} (hd : decode pool₁ s = (result, buffers, rest)) :
    ∃ buffers', decode pool₂ s = (result, buffers', rest) := by
  obtain ⟨hresult, hrest⟩ := decode_pool pool₂ pool₁ s
  rw [hd] at hresult hrest
  exact ⟨(decode pool₂ s).2.1, Prod.ext hresult (Prod.ext rfl hrest)⟩

/-! ## Refusals -/

theorem decodeHeader_error_extends {fault : Fault} (hs : s.Extends t ending s')
    (hd : decodeHeader pool s = (.error fault, pool', rest)) :
    fault = s.ending.fault ∨ (decodeHeader pool s').1 = .error fault := by
  unfold decodeHeader at hd ⊢
  rcases hr : s.read Header.byteSize with ⟨_ | bytes, r⟩
  · have := (Source.eq_of_read_error hr).2.1
    simp_all
  · obtain ⟨rest', hr', hrest⟩ := hs.read hr
    simp only [hr, Prod.mk.injEq] at hd
    exact .inr (by simp only [hr', hd.1])

theorem decodeArgument_error_extends {h : Header} {fault : Fault}
    (hd : decodeArgument h s = (.error fault, rest)) :
    fault = s.ending.fault ∨ ∀ s', (decodeArgument h s').1 = .error fault := by
  unfold decodeArgument at hd ⊢
  dsimp only at hd ⊢
  split at hd
  · rename_i hsize
    simp only [Prod.mk.injEq] at hd
    exact .inr fun s' ↦ by rw [if_pos hsize]; exact hd.1
  · exact .inl (Source.eq_of_read_error hd).2.1

theorem decodePayload_error_extends {h : Header} {fault : Fault}
    (hd : decodePayload h pool s = (.error fault, pool', rest)) :
    fault = s.ending.fault ∨ ∀ pool s', (decodePayload h pool s').1 = .error fault := by
  unfold decodePayload at hd ⊢
  split at hd
  · rename_i hsize
    simp only [Prod.mk.injEq] at hd
    exact .inr fun pool s' ↦ by rw [if_pos hsize]; exact hd.1
  · rcases hr : s.read h.payloadSize with ⟨_ | bytes, r⟩
    · have := (Source.eq_of_read_error hr).2.1
      simp_all
    · simp [hr] at hd

theorem decode_of_decodeHeader_error {fault : Fault}
    (hh : (decodeHeader pool s).1 = .error fault) : (decode pool s).1 = .error fault := by
  unfold decode
  split <;> simp_all

theorem decode_of_decodeArgument_error {h : Header} {fault : Fault}
    (hh : decodeHeader pool s = (.ok h, pool', rest))
    (ha : (decodeArgument h rest).1 = .error fault) : (decode pool s).1 = .error fault := by
  unfold decode
  simp only [hh]
  split <;> simp_all

theorem decode_of_decodePayload_error {h : Header} {b : ByteArray} {rest' : Source} {fault : Fault}
    (hh : decodeHeader pool s = (.ok h, pool', rest)) (ha : decodeArgument h rest = (.ok b, rest'))
    (hp : (decodePayload h pool' rest').1 = .error fault) : (decode pool s).1 = .error fault := by
  unfold decode
  simp only [hh, ha]
  split <;> simp_all

/-- A source is refused for want of bytes, or else whatever may still follow. -/
theorem decode_error_extends {fault : Fault} (hs : s.Extends t ending s')
    (hd : (decode pool s).1 = .error fault) :
    fault = s.ending.fault ∨ (decode pool s').1 = .error fault := by
  rcases hh : decodeHeader pool s with ⟨fault' | h, pool₁, s₁⟩
  · rw [decode_of_decodeHeader_error (by rw [hh])] at hd
    cases hd
    exact (decodeHeader_error_extends hs hh).imp_right decode_of_decodeHeader_error
  · obtain ⟨s₁', hh', hs₁⟩ := decodeHeader_extends hs hh
    rw [← ending_of_decodeHeader hh]
    rcases ha : decodeArgument h s₁ with ⟨fault' | a, s₂⟩
    · rw [decode_of_decodeArgument_error hh (by rw [ha])] at hd
      cases hd
      exact (decodeArgument_error_extends ha).imp_right fun ha' ↦
        decode_of_decodeArgument_error hh' (ha' s₁')
    · obtain ⟨s₂', ha', hs₂⟩ := decodeArgument_extends hs₁ ha
      rw [← ending_of_decodeArgument ha]
      rcases hp : decodePayload h pool₁ s₂ with ⟨fault' | d, pool₂, s₃⟩
      · rw [decode_of_decodePayload_error hh ha (by rw [hp])] at hd
        cases hd
        exact (decodePayload_error_extends hp).imp_right fun hp' ↦
          decode_of_decodePayload_error hh' ha' (hp' pool₁ s₂')
      · simp [decode, hh, ha, hp] at hd

/-- A proper beginning of a frame is refused for want of bytes. -/
theorem decode_of_prefix {p : Packet} (hs : s.Extends t ending s') (ht : t.size ≠ 0)
    (hd : decode pool s' = (.ok p, pool', rest)) (hrest : rest.bytes.size = 0) :
    (decode pool s).1 = .error s.ending.fault := by
  rcases hd' : decode pool s with ⟨fault | q, pool'', rest'⟩
  · rcases decode_error_extends hs (by rw [hd']) with rfl | hfault
    · rfl
    · simp [hd] at hfault
  · obtain ⟨rest'', hd'', hr⟩ := decode_extends hs hd'
    obtain ⟨-, -, rfl⟩ := by simpa [hd] using hd''
    have := congrArg ByteArray.size hr.bytes_eq
    simp only [ByteArray.size_append] at this
    omega

/-! ## Faults -/

/-- A fault says that bytes did not arrive or that they are not those of a packet. -/
def IsUnreadable : Fault → Prop
  | .io _ | .invalidMagic _ | .payloadTooLarge _ | .protocol _ => True
  | _ => False

theorem isUnreadable_of_read {n : Nat} {fault : Fault} (hr : s.read n = (.error fault, rest)) :
    IsUnreadable fault := by
  obtain ⟨-, rfl, -⟩ := Source.eq_of_read_error hr
  cases s.ending <;> trivial

theorem isUnreadable_of_parse {b : ByteArray} {fault : Fault}
    (hp : Header.parse b = .error fault) : IsUnreadable fault := by
  simp only [Header.parse, Header.ofList, ExtentMode.ofByte, ResultCode.ofByte] at hp
  grind [IsUnreadable]

theorem isUnreadable_of_decodeHeader {fault : Fault}
    (hh : decodeHeader pool s = (.error fault, pool', rest)) : IsUnreadable fault := by
  simp only [decodeHeader] at hh
  split at hh
  · rename_i hr
    cases hh
    exact isUnreadable_of_read hr
  · exact isUnreadable_of_parse (Prod.mk.inj hh).1

theorem isUnreadable_of_decodeArgument {h : Header} {fault : Fault}
    (ha : decodeArgument h s = (.error fault, rest)) : IsUnreadable fault := by
  simp only [decodeArgument] at ha
  split at ha
  · cases ha
    trivial
  · exact isUnreadable_of_read ha

theorem isUnreadable_of_decodePayload {h : Header} {fault : Fault}
    (hp : decodePayload h pool s = (.error fault, pool', rest)) : IsUnreadable fault := by
  simp only [decodePayload] at hp
  split at hp
  · cases hp
    trivial
  · split at hp
    · rename_i hr
      cases hp
      exact isUnreadable_of_read hr
    · cases hp

/-- Whatever keeps a packet from being read has to do with its bytes alone. -/
theorem isUnreadable_of_decode {fault : Fault} (hd : (decode pool s).1 = .error fault) :
    IsUnreadable fault := by
  rcases hh : decodeHeader pool s with ⟨fault' | h, pool₁, s₁⟩
  · rw [decode_of_decodeHeader_error (by rw [hh])] at hd
    cases hd
    exact isUnreadable_of_decodeHeader hh
  rcases ha : decodeArgument h s₁ with ⟨fault' | b, s₂⟩
  · rw [decode_of_decodeArgument_error hh (by rw [ha])] at hd
    cases hd
    exact isUnreadable_of_decodeArgument ha
  rcases hp : decodePayload h pool₁ s₂ with ⟨fault' | data, pool₂, s₃⟩
  · rw [decode_of_decodePayload_error hh ha (by rw [hp])] at hd
    cases hd
    exact isUnreadable_of_decodePayload hp
  · simp [decode, hh, ha, hp] at hd

end ReplicaChain.Wire.Packet
