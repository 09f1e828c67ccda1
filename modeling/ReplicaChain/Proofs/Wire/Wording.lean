import Mathlib.Data.Nat.Digits.Lemmas
import Mathlib.Data.String.Basic
import ReplicaChain.Follower.Descriptor
import ReplicaChain.Proofs.Wire.Decoding
import ReplicaChain.Proofs.Wire.ErrorBody

/-!
# How long the wording of a fault can be

A reply to a fault holds its wording, and a header declares no more than 32 bits of it.  Most of what
varies in a wording comes off the wire, where numbers have a width and an argument has a limit, so that the
wording of whatever is wrong with a packet or with a reply is far from that.  What an operating system or a
storage says of its failures is in its own words, whose length is up to them.
-/

namespace ReplicaChain

open Wire (Action Packet maxArgumentSize)

/-! ## Numbers -/

namespace Text

theorem length_toDigits_le {base n : Nat} (hbase : 10 ≤ base) (hn : n < 2 ^ 64) :
    (Nat.toDigits base n).length ≤ 20 := by
  refine (Nat.length_toDigits_le_iff (by omega) (by decide)).mpr ?_
  calc
    n < 2 ^ 64 := hn
    _ ≤ 10 ^ 20 := by decide
    _ ≤ base ^ 20 := Nat.pow_le_pow_left hbase 20

theorem length_decimal_le {n : Nat} (hn : n < 2 ^ 64) : (decimal n).toList.length ≤ 20 := by
  rw [decimal, String.toList_ofList]
  exact length_toDigits_le (Nat.le_refl 10) hn

theorem length_hex_le {n : Nat} (hn : n < 2 ^ 64) : (hex n).toList.length ≤ 22 := by
  have hbase : 10 ≤ 16 := by decide
  have hdigits := length_toDigits_le hbase hn
  simp only [hex, String.toList_append, String.reduceToList, String.toList_ofList, List.length_append,
    List.length_cons, List.length_nil]
  omega

theorem length_signed_le {i : Int} (hi : i.natAbs < 2 ^ 64) : (signed i).toList.length ≤ 21 := by
  cases i with
  | ofNat n => exact Nat.le_trans (length_decimal_le hi) (by decide)
  | negSucc n =>
    have hdigits : (decimal (n + 1)).toList.length ≤ 20 := length_decimal_le hi
    simp only [signed, String.toList_append, String.reduceToList, List.length_append, List.length_cons,
      List.length_nil]
    omega

/-- A character takes one to four bytes. -/
theorem utf8ByteSize_bounds (s : String) :
    s.toList.length ≤ s.utf8ByteSize ∧ s.utf8ByteSize ≤ 4 * s.toList.length := by
  have hlist (cs : List Char) : cs.length ≤ String.utf8Len cs ∧ String.utf8Len cs ≤ 4 * cs.length := by
    induction cs with
    | nil => exact ⟨Nat.le_refl _, Nat.le_refl _⟩
    | cons c cs ih =>
      have hpos := c.utf8Size_pos
      have hfour := c.utf8Size_le_four
      simp only [String.utf8Len_cons, List.length_cons]
      omega
  have hs := hlist s.toList
  rwa [← String.utf8ByteSize_ofList, String.ofList_toList] at hs

namespace Utf8

theorem le_three_of_spoiled {bs : List UInt8} {n : Nat} (h : spoiled bs = some n) : n ≤ 3 := by
  unfold spoiled at h
  grind

theorem index_faultFrom_le (b : ByteArray) {i : Nat} (hi : i ≤ b.size + 4) :
    (faultFrom b i).index ≤ b.size + 4 ∧ ∀ n, (faultFrom b i).length = some n → n ≤ 3 := by
  fun_induction faultFrom b i with
  | case1 i hlt c hc ih =>
    have hwidth := c.utf8Size_le_four
    exact ih (by omega)
  | case2 i hlt hc => exact ⟨hi, fun n ↦ le_three_of_spoiled⟩
  | case3 i hge => exact ⟨hi, by simp⟩

/-- Bytes stop being text at one of them or where they end. -/
theorem index_le_of_decode {b : ByteArray} {fault : Fault} (h : decode b = .error fault) :
    fault.index ≤ b.size + 4 ∧ ∀ n, fault.length = some n → n ≤ 3 := by
  unfold decode at h
  split at h
  · cases h
  · obtain rfl := Except.error.inj h
    exact index_faultFrom_le b (Nat.zero_le _)

theorem length_message_le {fault : Fault} (hindex : fault.index < 2 ^ 64)
    (hlength : ∀ n, fault.length = some n → n < 2 ^ 64) : fault.message.toList.length ≤ 84 := by
  have hindex := length_decimal_le hindex
  unfold Fault.message
  split
  all_goals
    simp only [String.toList_append, String.reduceToList, List.length_append, List.length_cons,
      List.length_nil]
  · rename_i n hn
    have hn := length_decimal_le (hlength n hn)
    omega
  · omega

end Utf8

end Text

/-! ## Faults -/

/-- What varies in the wording of a breach takes no more room than a number of the wire. -/
def Breach.HasShortParts : Breach → Prop
  | .shortHeader required available => required < 2 ^ 64 ∧ available < 2 ^ 64
  | .longArgument size limit => size < 2 ^ 64 ∧ limit < 2 ^ 64
  | .shortPayload declared held => declared < 2 ^ 64 ∧ held < 2 ^ 64
  | .garbledDescriptors fault => fault.index < 2 ^ 64 ∧ ∀ n, fault.length = some n → n < 2 ^ 64
  | .stated text => text.toList.length ≤ maxArgumentSize
  | _ => True

/-- The wording of a breach takes little more room than its parts. -/
theorem Breach.length_message_le {breach : Breach} (h : breach.HasShortParts) :
    breach.message.toList.length ≤ maxArgumentSize + 128 := by
  have hbyte (b : UInt8) : b.toNat < 2 ^ 64 := Nat.lt_trans b.toNat_lt (by decide)
  delta message
  cases breach
  all_goals
    simp only [String.toList_append, String.reduceToList, List.length_append, List.length_cons,
      List.length_nil]
  case shortHeader | longArgument | shortPayload =>
    have hleft := Text.length_decimal_le h.1
    have hright := Text.length_decimal_le h.2
    omega
  case unknownResult code =>
    have hcode := Text.length_hex_le (hbyte code)
    omega
  case unknownMode code =>
    have hcode := Text.length_decimal_le (hbyte code)
    omega
  case garbledDescriptors fault =>
    have hfault := Text.Utf8.length_message_le h.1 h.2
    omega
  case stated text =>
    have htext : text.toList.length ≤ maxArgumentSize := h
    omega

namespace Fault

/-- What varies in the wording of a fault takes no more room than a number or an argument of the wire. -/
def HasShortParts : Fault → Prop
  | .io fault => fault.text.toList.length ≤ maxArgumentSize
  | .argumentLength declared available => declared < 2 ^ 64 ∧ available < 2 ^ 64
  | .payloadTooLarge size => size < 2 ^ 64
  | .unlinked address | .followerRefused address _ _ | .requestMismatch address _ _ =>
    address.toList.length ≤ maxArgumentSize
  | .protocol breach => breach.HasShortParts
  | .storage _ | .settings _ => False
  | _ => True

/-- The wording of a fault takes little more room than its parts. -/
theorem length_message_le {fault : Fault} (h : fault.HasShortParts) :
    fault.message.toList.length ≤ maxArgumentSize + 256 := by
  have hbyte (b : UInt8) := Text.length_hex_le (Nat.lt_trans b.toNat_lt (by decide : 2 ^ 8 < 2 ^ 64))
  have hword (w : UInt32) := Text.length_hex_le (Nat.lt_trans w.toNat_lt (by decide : 2 ^ 32 < 2 ^ 64))
  have hid (i : Int64) : (Text.signed i.toInt).toList.length ≤ 21 := by
    have := i.toInt_lt
    have := i.le_toInt
    exact Text.length_signed_le (by omega)
  delta message
  cases fault
  all_goals
    simp only [String.toList_append, String.reduceToList, List.length_append, List.length_cons,
      List.length_nil]
  case io fault =>
    have htext : fault.text.toList.length ≤ maxArgumentSize := h
    omega
  case argumentLength declared available =>
    have hdeclared := Text.length_decimal_le h.1
    have havailable := Text.length_decimal_le h.2
    omega
  case payloadTooLarge size =>
    have hsize := Text.length_decimal_le h
    omega
  case invalidMagic b | unknownOpcode b =>
    have hb := hbyte b
    omega
  case hopCount remaining =>
    have hremaining : (Text.signed remaining.toInt).toList.length ≤ 21 := by
      have := remaining.toInt_lt
      have := remaining.le_toInt
      exact Text.length_signed_le (by omega)
    omega
  case checksum expected actual =>
    have hexpected := hword expected
    have hactual := hword actual
    omega
  case unlinked address =>
    have haddress : address.toList.length ≤ maxArgumentSize := h
    omega
  case linksExhausted | linksDraining => omega
  case followerRefused address code detail =>
    have haddress : address.toList.length ≤ maxArgumentSize := h
    have hcode := hbyte code
    omega
  case requestMismatch address expected actual =>
    have haddress : address.toList.length ≤ maxArgumentSize := h
    have hexpected := hid expected
    have hactual := hid actual
    omega
  case protocol breach =>
    have hbreach := Breach.length_message_le h
    omega
  case storage | settings => exact h.elim

/-- The body that reports a fault met during an action is shorter than the size that a header can declare. -/
def IsReportable (action : Action) (fault : Fault) : Prop :=
  (Bytes.ofText (Wire.errorBody action fault)).size < 2 ^ 32

theorem isReportable_of_hasShortParts (action : Action) {fault : Fault} (h : fault.HasShortParts) :
    fault.IsReportable action := by
  have hheading := action.size_heading_le
  have hbytes : (Bytes.ofText fault.message).size ≤ 4 * fault.message.toList.length :=
    (Text.utf8ByteSize_bounds fault.message).2
  have hlength : fault.message.toList.length ≤ 65536 + 256 := length_message_le h
  rw [IsReportable, Action.ofText_errorBody, ByteArray.size_append]
  omega

end Fault

/-! ## What is wrong with bytes -/

namespace Wire

theorem hasShortParts_of_parse {b : ByteArray} {fault : Fault} (h : Header.parse b = .error fault) :
    fault.HasShortParts := by
  unfold Header.parse at h
  split at h
  · cases h
    have hsize : b.size < 65 := by assumption
    exact ⟨by decide, by omega⟩
  · simp only [Header.ofList, ExtentMode.ofByte, ResultCode.ofByte] at h
    grind [Fault.HasShortParts, Breach.HasShortParts]

namespace Packet

variable {pool pool' : BufferPool} {s rest : Source}

theorem hasShortParts_of_decodeHeader {fault : Fault}
    (hh : decodeHeader pool s = (.error fault, pool', rest)) :
    fault = s.ending.fault ∨ fault.HasShortParts := by
  simp only [decodeHeader] at hh
  split at hh
  · rename_i hr
    cases hh
    exact .inl (Source.eq_of_read_error hr).2.1
  · exact .inr (hasShortParts_of_parse (Prod.mk.inj hh).1)

theorem hasShortParts_of_decodeArgument {h : Header} {fault : Fault}
    (ha : decodeArgument h s = (.error fault, rest)) :
    fault = s.ending.fault ∨ fault.HasShortParts := by
  simp only [decodeArgument] at ha
  split at ha
  · cases ha
    exact .inr ⟨Nat.lt_trans h.argumentSize.toNat_lt (by decide), by decide⟩
  · exact .inl (Source.eq_of_read_error ha).2.1

theorem payloadSize_lt (h : Header) : h.payloadSize < 2 ^ 64 := by
  have hsize := h.size.toNat_lt
  unfold Header.payloadSize
  split <;> omega

theorem hasShortParts_of_decodePayload {h : Header} {fault : Fault}
    (hp : decodePayload h pool s = (.error fault, pool', rest)) :
    fault = s.ending.fault ∨ fault.HasShortParts := by
  simp only [decodePayload] at hp
  split at hp
  · cases hp
    exact .inr (payloadSize_lt h)
  · split at hp
    · rename_i hr
      cases hp
      exact .inl (Source.eq_of_read_error hr).2.1
    · cases hp

/-- A stream off which no packet could be read broke off, or its bytes are not those of a packet. -/
theorem hasShortParts_of_decode {fault : Fault} (hd : (decode pool s).1 = .error fault) :
    fault = s.ending.fault ∨ fault.HasShortParts := by
  rcases hh : decodeHeader pool s with ⟨fault' | h, pool₁, s₁⟩
  · rw [decode_of_decodeHeader_error (by rw [hh])] at hd
    cases hd
    exact hasShortParts_of_decodeHeader hh
  rw [← ending_of_decodeHeader hh]
  rcases ha : decodeArgument h s₁ with ⟨fault' | b, s₂⟩
  · rw [decode_of_decodeArgument_error hh (by rw [ha])] at hd
    cases hd
    exact hasShortParts_of_decodeArgument ha
  rw [← ending_of_decodeArgument ha]
  rcases hp : decodePayload h pool₁ s₂ with ⟨fault' | data, pool₂, s₃⟩
  · rw [decode_of_decodePayload_error hh ha (by rw [hp])] at hd
    cases hd
    exact hasShortParts_of_decodePayload hp
  · simp [decode, hh, ha, hp] at hd

end Packet

end Wire

end ReplicaChain
