/-!
# Big-endian words

Numbers travel most significant byte first.  One codec serves every width: `encode` writes the
low `w` bytes of a natural number and `decode` reads any byte list back, and each undoes the
other on words of the same width.
-/

namespace ReplicaChain.Bytes.BigEndian

/-- How many numbers `w` bytes can express, which is the weight of a byte before `w` others. -/
def weight : Nat → Nat
  | 0 => 1
  | w + 1 => weight w * 256

@[simp]
theorem weight_zero : weight 0 = 1 := rfl

theorem weight_succ (w : Nat) : weight (w + 1) = weight w * 256 := rfl

theorem weight_pos (w : Nat) : 0 < weight w := by
  induction w with
  | zero => decide
  | succ w ih =>
    rw [weight_succ]
    omega

/-- The `w` low bytes of `n`, most significant first. -/
def encode : (w : Nat) → (n : Nat) → List UInt8
  | 0, _ => []
  | w + 1, n => UInt8.ofNat (n / weight w) :: encode w n

/-- The number whose digits to base 256 are the given bytes. -/
def decode (bs : List UInt8) : Nat :=
  bs.foldl (fun acc b ↦ acc * 256 + b.toNat) 0

@[simp]
theorem length_encode (w n : Nat) : (encode w n).length = w := by
  induction w with
  | zero => rfl
  | succ w ih => simp [encode, ih]

theorem foldl_eq_add_decode (bs : List UInt8) (acc : Nat) :
    bs.foldl (fun acc b ↦ acc * 256 + b.toNat) acc = acc * weight bs.length + decode bs := by
  induction bs generalizing acc with
  | nil => simp [decode]
  | cons b bs ih =>
    simp only [decode, List.foldl_cons, List.length_cons]
    rw [ih, ih (0 * 256 + b.toNat), weight_succ, Nat.add_mul, Nat.zero_mul, Nat.zero_add,
      Nat.mul_assoc, Nat.mul_comm 256, Nat.add_assoc]

theorem decode_cons (b : UInt8) (bs : List UInt8) :
    decode (b :: bs) = b.toNat * weight bs.length + decode bs := by
  rw [← foldl_eq_add_decode]
  simp [decode]

theorem decode_lt (bs : List UInt8) : decode bs < weight bs.length := by
  induction bs with
  | nil => simp [decode]
  | cons b bs ih =>
    rw [decode_cons, List.length_cons, weight_succ]
    have hb := b.toNat_lt
    have : (b.toNat + 1) * weight bs.length ≤ 256 * weight bs.length :=
      Nat.mul_le_mul_right _ (by omega)
    rw [Nat.add_mul, Nat.one_mul] at this
    omega

/-- Reading back a written word gives the number modulo the word's range. -/
theorem decode_encode (w n : Nat) : decode (encode w n) = n % weight w := by
  induction w with
  | zero => simp [encode, decode, Nat.mod_one]
  | succ w ih =>
    rw [encode, decode_cons, length_encode, ih]
    have hbyte : (UInt8.ofNat (n / weight w)).toNat = n / weight w % 256 := UInt8.toNat_ofNat'
    rw [hbyte, weight_succ, Nat.mod_mul, Nat.mul_comm, Nat.add_comm]

/-- Writing back a read word of `w` bytes gives the same bytes. -/
theorem encode_decode {w : Nat} {bs : List UInt8} (h : bs.length = w) :
    encode w (decode bs) = bs := by
  subst h
  suffices ∀ (bs : List UInt8) (k : Nat), encode bs.length (k * weight bs.length + decode bs) = bs by
    simpa using this bs 0
  intro bs
  induction bs with
  | nil => intro k; rfl
  | cons b bs ih =>
    intro k
    have hlt := decode_lt bs
    have hpos : 0 < weight bs.length := weight_pos bs.length
    rw [List.length_cons, encode, decode_cons, weight_succ]
    have hsum : k * (weight bs.length * 256) + (b.toNat * weight bs.length + decode bs) =
        (k * 256 + b.toNat) * weight bs.length + decode bs := by
      rw [Nat.add_mul, Nat.mul_assoc, Nat.mul_comm 256, Nat.add_assoc]
    rw [hsum, ih]
    congr 1
    rw [Nat.mul_comm, Nat.mul_add_div hpos, Nat.div_eq_of_lt hlt, Nat.add_zero]
    apply UInt8.toNat.inj
    simp only [UInt8.toNat_ofNat']
    have hb := b.toNat_lt
    omega

end ReplicaChain.Bytes.BigEndian
