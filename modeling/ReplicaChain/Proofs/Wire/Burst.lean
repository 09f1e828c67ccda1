import Mathlib.Data.List.Basic
import Mathlib.Data.Nat.Bitwise
import Mathlib.Data.Nat.Digits.Lemmas
import ReplicaChain.Checksum

/-!
# Bursts of errors

A checksum tells two byte strings of one size apart whenever they differ within four consecutive bytes
only, wherever these bytes lie and however long the strings are.

A shift of the register is linear over the field of two elements, and it is injective because the generator
has its highest bit set.  So two registers that differ once still differ after any bytes that are the same.
Up to four bytes, read as a number with the least significant byte first, can be added to the register
before they are shifted through it, since none of their bits is shifted out before its turn.  Four bytes
thus change the register by no more than an injection, and different numbers leave different registers.
-/

namespace ReplicaChain.Checksum

/-- Two byte strings of one size that differ at most within some consecutive bytes. -/
structure DiffersWithin (start width : Nat) (a b : ByteArray) : Prop where
  size_eq : a.size = b.size
  getElem?_eq : ∀ i, i < start ∨ start + width ≤ i → a.data[i]? = b.data[i]?

/-! ## One shift -/

theorem and_one_eq_zero_iff (register : UInt32) : register &&& 1 = 0 ↔ register.toNat % 2 = 0 := by
  rw [← UInt32.toNat_inj, UInt32.toNat_and]
  exact iff_of_eq (congrArg (· = 0) (Nat.and_one_is_mod _))

theorem shift_of_even {register : UInt32} (h : register.toNat % 2 = 0) :
    shift register = register >>> 1 :=
  if_pos ((and_one_eq_zero_iff register).mpr h)

theorem shift_of_odd {register : UInt32} (h : register.toNat % 2 = 1) :
    shift register = (register >>> 1) ^^^ polynomial :=
  if_neg (by rw [and_one_eq_zero_iff, h]; decide)

theorem toNat_shiftRight_one (register : UInt32) : (register >>> 1).toNat = register.toNat / 2 := by
  rw [UInt32.toNat_shiftRight]
  exact Nat.shiftRight_eq_div_pow _ 1

theorem shift_xor (a b : UInt32) : shift (a ^^^ b) = shift a ^^^ shift b := by
  have hlow : (a ^^^ b).toNat % 2 = (a.toNat % 2 + b.toNat % 2) % 2 := by
    rw [UInt32.toNat_xor, ← Nat.add_mod, Nat.xor_mod_two_eq]
  rcases Nat.mod_two_eq_zero_or_one a.toNat with ha | ha <;>
    rcases Nat.mod_two_eq_zero_or_one b.toNat with hb | hb <;>
    rw [ha, hb] at hlow
  · rw [shift_of_even hlow, shift_of_even ha, shift_of_even hb, UInt32.shiftRight_xor]
  · rw [shift_of_odd hlow, shift_of_even ha, shift_of_odd hb, UInt32.shiftRight_xor, UInt32.xor_assoc]
  · rw [shift_of_odd hlow, shift_of_odd ha, shift_of_even hb, UInt32.shiftRight_xor]
    ac_rfl
  · rw [shift_of_even hlow, shift_of_odd ha, shift_of_odd hb, UInt32.shiftRight_xor,
      UInt32.xor_comm (b >>> 1), UInt32.xor_assoc, ← UInt32.xor_assoc polynomial, UInt32.xor_self,
      UInt32.zero_xor]

/-- The generator has the highest bit, which a shifted register has not. -/
theorem eq_zero_of_shift_eq_zero {register : UInt32} (h : shift register = 0) : register = 0 := by
  have hhalf := toNat_shiftRight_one register
  have hlt := register.toNat_lt
  rcases Nat.mod_two_eq_zero_or_one register.toNat with hlow | hlow
  · rw [shift_of_even hlow] at h
    rw [h] at hhalf
    exact UInt32.toNat_inj.mp (by simp at hhalf ⊢; omega)
  · rw [shift_of_odd hlow, UInt32.xor_eq_zero_iff] at h
    rw [h] at hhalf
    have : polynomial.toNat = 3988292384 := rfl
    omega

theorem shift_injective : Function.Injective shift := by
  intro a b h
  rw [← UInt32.xor_eq_zero_iff] at h ⊢
  rw [← shift_xor] at h
  exact eq_zero_of_shift_eq_zero h

/-! ## Several shifts -/

theorem iterate_shift_xor (n : Nat) (a b : UInt32) :
    shift^[n] (a ^^^ b) = shift^[n] a ^^^ shift^[n] b := by
  induction n generalizing a b with
  | zero => rfl
  | succ n ih => rw [Function.iterate_succ_apply, shift_xor, ih]; rfl

/-- Zero bits below a number are shifted out without feeding anything back. -/
theorem iterate_shift_two_pow_mul {n k : Nat} (h : 2 ^ n * k < 2 ^ 32) :
    shift^[n] (.ofNat (2 ^ n * k)) = .ofNat k := by
  induction n with
  | zero => simp
  | succ n ih =>
    have hdouble : 2 ^ (n + 1) * k = 2 * (2 ^ n * k) := by ring
    have hlt : 2 ^ n * k < 2 ^ 32 := by omega
    rw [Function.iterate_succ_apply, ← ih hlt]
    congr 1
    have hnat : (UInt32.ofNat (2 ^ (n + 1) * k)).toNat = 2 * (2 ^ n * k) := by
      rw [UInt32.toNat_ofNat_of_lt' h, hdouble]
    rw [shift_of_even (by omega), ← UInt32.toNat_inj, toNat_shiftRight_one, hnat,
      UInt32.toNat_ofNat_of_lt' hlt]
    omega

theorem absorb_eq (register : UInt32) (byte : UInt8) :
    absorb register byte = shift^[8] (register ^^^ byte.toUInt32) := rfl

theorem absorb_left_injective (byte : UInt8) : Function.Injective (absorb · byte) := by
  intro a b h
  have := shift_injective.iterate 8 h
  exact (UInt32.xor_left_inj _).mp this

theorem foldl_absorb_injective (bytes : List UInt8) :
    Function.Injective fun register ↦ bytes.foldl absorb register := by
  induction bytes with
  | nil => exact fun _ _ h ↦ h
  | cons byte bytes ih => exact ih.comp (absorb_left_injective byte)

/-! ## Up to four bytes -/

/-- Bytes as a number, least significant byte first. -/
def word (bytes : List UInt8) : Nat :=
  Nat.ofDigits 256 (bytes.map UInt8.toNat)

theorem word_cons (byte : UInt8) (bytes : List UInt8) :
    word (byte :: bytes) = byte.toNat + 256 * word bytes := by
  simp [word, Nat.ofDigits_cons]

theorem word_lt (bytes : List UInt8) : word bytes < 256 ^ bytes.length := by
  simpa [word] using Nat.ofDigits_lt_base_pow_length (b := 256) (l := bytes.map UInt8.toNat)
    (by decide) (by simpa using fun x _ ↦ x.toNat_lt)

theorem word_injective {a b : List UInt8} (hlength : a.length = b.length) (h : word a = word b) :
    a = b := by
  have hlt (bytes : List UInt8) : ∀ digit ∈ bytes.map UInt8.toNat, digit < 256 := by
    simpa using fun byte _ ↦ byte.toNat_lt
  have hdigits : a.map UInt8.toNat = b.map UInt8.toNat :=
    Nat.ofDigits_inj_of_len_eq (by decide) (by simpa using hlength) (hlt a) (hlt b) h
  exact List.map_injective_iff.mpr (fun _ _ ↦ UInt8.toNat_inj.mp) hdigits

/-- A byte is added below a number by adding it modulo two. -/
theorem ofNat_add_mul (byte : UInt8) (n : Nat) :
    UInt32.ofNat (byte.toNat + 256 * n) = byte.toUInt32 ^^^ .ofNat (2 ^ 8 * n) := by
  have hbyte : byte.toNat < 2 ^ 8 := byte.toNat_lt
  have hxor : byte.toNat + 256 * n = byte.toNat ^^^ (2 ^ 8 * n) := by
    refine Nat.eq_of_testBit_eq fun i ↦ ?_
    rw [Nat.add_comm, show 256 = 2 ^ 8 by rfl, Nat.testBit_two_pow_mul_add _ hbyte,
      Nat.testBit_xor, Nat.testBit_two_pow_mul]
    by_cases hi : i < 8
    · simp [hi, show ¬ 8 ≤ i by omega]
    · have hhigh : byte.toNat.testBit i = false :=
        Nat.testBit_lt_two_pow (hbyte.trans_le (Nat.pow_le_pow_right (by decide) (by omega)))
      simp [hi, show 8 ≤ i by omega, hhigh]
  rw [hxor, UInt32.ofNat_xor, UInt32.ofNat_uInt8ToNat]

/-- Bytes that fit the register can be added to it all at once before they are shifted through. -/
theorem foldl_absorb_eq {bytes : List UInt8} (hlength : bytes.length ≤ 4) (register : UInt32) :
    bytes.foldl absorb register =
      shift^[8 * bytes.length] (register ^^^ .ofNat (word bytes)) := by
  induction bytes generalizing register with
  | nil => simp [word]
  | cons byte bytes ih =>
    rw [List.length_cons] at hlength
    have hlt : 2 ^ 8 * word bytes < 2 ^ 32 := by
      have hpow : 256 ^ bytes.length ≤ 256 ^ 3 := Nat.pow_le_pow_right (by decide) (by omega)
      have := word_lt bytes
      omega
    calc (byte :: bytes).foldl absorb register
      _ = shift^[8 * bytes.length] (absorb register byte ^^^ .ofNat (word bytes)) := ih (by omega) _
      _ = shift^[8 * bytes.length] (shift^[8]
            (register ^^^ byte.toUInt32 ^^^ .ofNat (2 ^ 8 * word bytes))) := by
        rw [iterate_shift_xor 8, iterate_shift_two_pow_mul hlt, absorb_eq]
      _ = shift^[8 * (bytes.length + 1)] (register ^^^ .ofNat (word (byte :: bytes))) := by
        rw [← Function.iterate_add_apply, word_cons, ofNat_add_mul, UInt32.xor_assoc]
        rfl

/-- Different bytes, at most four, leave different registers. -/
theorem eq_of_foldl_absorb_eq {a b : List UInt8} {register : UInt32} (hlength : a.length = b.length)
    (hwidth : b.length ≤ 4) (h : a.foldl absorb register = b.foldl absorb register) : a = b := by
  rw [foldl_absorb_eq (hlength.trans_le hwidth), foldl_absorb_eq hwidth, hlength] at h
  have hnumbers : UInt32.ofNat (word a) = UInt32.ofNat (word b) :=
    (UInt32.xor_right_inj _).mp (shift_injective.iterate _ h)
  have hlt {bytes : List UInt8} (hbytes : bytes.length ≤ 4) : word bytes < 2 ^ 32 :=
    (word_lt bytes).trans_le (Nat.pow_le_pow_right (by decide) hbytes)
  refine word_injective hlength ?_
  rw [← UInt32.toNat_inj, UInt32.toNat_ofNat_of_lt' (hlt (hlength.trans_le hwidth)),
    UInt32.toNat_ofNat_of_lt' (hlt hwidth)] at hnumbers
  exact hnumbers

/-! ## Whole byte strings -/

theorem DiffersWithin.cut {start width : Nat} {a b : ByteArray} (h : DiffersWithin start width a b) :
    a.data.toList.take start = b.data.toList.take start ∧
      a.data.toList.drop (start + width) = b.data.toList.drop (start + width) := by
  have hat (i : Nat) (hi : i < start ∨ start + width ≤ i) : a.data.toList[i]? = b.data.toList[i]? := by
    simpa using h.getElem?_eq i hi
  constructor
  · refine List.ext_getElem? fun i ↦ ?_
    rw [List.getElem?_take, List.getElem?_take]
    split
    · exact hat i (.inl ‹_›)
    · rfl
  · refine List.ext_getElem? fun i ↦ ?_
    rw [List.getElem?_drop, List.getElem?_drop]
    exact hat _ (.inr (Nat.le_add_right ..))

/-- A checksum detects every change that is confined to four consecutive bytes. -/
theorem eq_of_crc32_eq {start : Nat} {a b : ByteArray} (h : DiffersWithin start 4 a b)
    (hcrc : crc32 a = crc32 b) : a = b := by
  obtain ⟨hbefore, hafter⟩ := h.cut
  have hsplit (bytes : List UInt8) :
      bytes.take start ++ ((bytes.drop start).take 4 ++ bytes.drop (start + 4)) = bytes := by
    rw [← List.drop_drop, List.take_append_drop, List.take_append_drop]
  have hlength : a.data.toList.length = b.data.toList.length := h.size_eq
  rw [crc32, crc32, UInt32.xor_left_inj, run, run, ← Array.foldl_toList, ← Array.foldl_toList,
    ← hsplit a.data.toList, ← hsplit b.data.toList, List.foldl_append, List.foldl_append,
    List.foldl_append, List.foldl_append, hbefore, hafter] at hcrc
  have hwindow := eq_of_foldl_absorb_eq (by simp [hlength]) (by simp)
    (foldl_absorb_injective _ hcrc)
  have hlists : a.data.toList = b.data.toList := by
    rw [← hsplit a.data.toList, ← hsplit b.data.toList, hbefore, hafter, hwindow]
  exact ByteArray.ext (Array.toList_inj.mp hlists)

end ReplicaChain.Checksum
