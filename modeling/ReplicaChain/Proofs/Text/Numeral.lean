import Mathlib.Data.Nat.Digits.Defs
import ReplicaChain.Text.Number

/-!
# Numerals that are read

What `unsigned?` reads is described by the text alone: digits, at least one, perhaps after a plus sign,
and the number that they stand for is below the bound.  A number that is printed is read back.
-/

namespace ReplicaChain.Text

variable {bound n : Nat} {c : Char} {cs : List Char}

/-- A numeral as it is read, for a number below a bound. -/
def IsNumeral (bound : Nat) (cs : List Char) : Prop :=
  ∃ digits, (cs = digits ∨ cs = '+' :: digits) ∧ digits ≠ [] ∧ (∀ c ∈ digits, c.isDigit) ∧
    Nat.ofDigitChars 10 digits 0 < bound

theorem isDigit_iff (c : Char) : c.isDigit = true ↔ '0' ≤ c ∧ c ≤ '9' := by
  rw [Char.isDigit, Bool.and_eq_true, decide_eq_true_iff, decide_eq_true_iff]
  exact Iff.rfl

/-- The digits to base ten are the ten figures. -/
theorem digitIn?_ten (c : Char) :
    digitIn? 10 c = if c.isDigit then some (c.toNat - '0'.toNat) else none := by
  unfold digitIn?
  by_cases hdigit : '0' ≤ c ∧ c ≤ '9'
  · have hle : c.toNat ≤ '9'.toNat := hdigit.2
    have hlt : c.toNat - '0'.toNat < 10 := Nat.sub_lt_left_of_lt_add hdigit.1 (Nat.lt_succ_of_le hle)
    rw [if_pos hdigit, if_pos ((isDigit_iff c).mpr hdigit), Option.filter_some,
      if_pos (decide_eq_true hlt)]
  · rw [if_neg hdigit, if_neg (mt (isDigit_iff c).mp hdigit)]
    split
    · simp [Option.filter_some]
    · split <;> simp [Option.filter_some]

theorem isDigitIn_ten (c : Char) : isDigitIn 10 c = c.isDigit := by
  rw [isDigitIn, digitIn?_ten]
  cases c.isDigit <;> rfl

theorem numeral_ten (h : ∀ c ∈ cs, c.isDigit) : numeral 10 cs = Nat.ofDigitChars 10 cs 0 := by
  have hdigits : cs.filterMap (digitIn? 10) = cs.map fun c ↦ c.toNat - '0'.toNat := by
    induction cs with
    | nil => rfl
    | cons c cs ih =>
      have hc : digitIn? 10 c = some (c.toNat - '0'.toNat) := by
        rw [digitIn?_ten, if_pos (h c List.mem_cons_self)]
      rw [List.filterMap_cons_some hc, List.map_cons, ih fun c hc ↦ h c (List.mem_cons_of_mem _ hc)]
  rw [numeral, hdigits, List.foldl_map, Nat.ofDigitChars_eq_foldl]
  simp only [Nat.mul_comm]

def figures? (bound : Nat) (cs : List Char) : Option Nat :=
  if cs.isEmpty || cs.any (!isDigitIn 10 ·) then none else numeralBelow bound 10 cs

theorem isSome_figures?_iff (positive : 0 < bound) :
    (figures? bound cs).isSome ↔
      cs ≠ [] ∧ (∀ c ∈ cs, c.isDigit) ∧ Nat.ofDigitChars 10 cs 0 < bound := by
  unfold figures?
  split
  · rename_i hbad
    simp only [Bool.or_eq_true, List.isEmpty_iff, List.any_eq_true, Bool.not_eq_true',
      isDigitIn_ten] at hbad
    simp only [Option.isSome_none, Bool.false_eq_true, false_iff]
    rintro ⟨hne, hdigits, -⟩
    rcases hbad with hempty | ⟨c, hc, hnot⟩
    · exact hne hempty
    · rw [hdigits c hc] at hnot
      cases hnot
  · rename_i hgood
    simp only [Bool.or_eq_true, List.isEmpty_iff, List.any_eq_true, Bool.not_eq_true',
      isDigitIn_ten, not_or, not_exists, not_and, Bool.not_eq_false] at hgood
    obtain ⟨hne, hdigits⟩ := hgood
    rw [numeralBelow_eq bound 10 cs positive (by decide), numeral_ten hdigits, Option.filter_some]
    simp only [decide_eq_true_eq]
    split
    · rename_i hlt
      exact iff_of_true rfl ⟨hne, hdigits, hlt⟩
    · rename_i hnot
      exact iff_of_false Bool.false_ne_true fun h ↦ hnot h.2.2

/-- What is read below a positive bound is a numeral. -/
theorem isSome_unsigned?_iff (positive : 0 < bound) :
    (unsigned? bound cs).isSome ↔ IsNumeral bound cs := by
  by_cases hplus : ∃ rest, cs = '+' :: rest
  · obtain ⟨rest, rfl⟩ := hplus
    have hread : unsigned? bound ('+' :: rest) = figures? bound rest := rfl
    rw [hread, isSome_figures?_iff positive]
    constructor
    · intro h
      exact ⟨rest, .inr rfl, h⟩
    · rintro ⟨digits, rfl | hrest, h⟩
      · exact absurd (h.2.1 '+' List.mem_cons_self) (by decide)
      · rwa [(List.cons.inj hrest).2]
  · have hread : unsigned? bound cs = figures? bound cs := by
      unfold unsigned?
      split
      · exact absurd ⟨_, rfl⟩ hplus
      · rfl
    rw [hread, isSome_figures?_iff positive]
    constructor
    · intro h
      exact ⟨cs, .inl rfl, h⟩
    · rintro ⟨digits, rfl | hcs, h⟩
      · exact h
      · exact absurd ⟨digits, hcs⟩ hplus

/-! ## Numerals as they are printed -/

theorem isDigit_toDigits : ∀ c ∈ Nat.toDigits 10 n, c.isDigit = true :=
  fun _ hc ↦ Nat.isDigit_of_mem_toDigits (by decide) (by decide) hc

theorem toDigits_eq_cons (n : Nat) : ∃ c cs, Nat.toDigits 10 n = c :: cs ∧ c.isDigit = true := by
  obtain ⟨c, cs, hcs⟩ := List.exists_cons_of_ne_nil (Nat.toDigits_ne_nil (b := 10) (n := n))
  exact ⟨c, cs, hcs, isDigit_toDigits c (hcs ▸ List.mem_cons_self)⟩

theorem head_toDigits_ne_zero (hn : 0 < n) : (Nat.toDigits 10 n).head Nat.toDigits_ne_nil ≠ '0' := by
  induction n using Nat.strongRecOn with
  | ind n ih =>
    by_cases hsmall : n < 10
    · simp only [Nat.toDigits_of_lt_base hsmall, List.head_cons]
      exact (by decide : ∀ m < 10, 0 < m → Nat.digitChar m ≠ '0') n hsmall hn
    · have hsplit := Nat.toDigits_of_base_le (b := 10) (by decide) (Nat.le_of_not_lt hsmall)
      have hhead := ih (n / 10) (by omega) (by omega)
      simp only [hsplit, List.head_append_of_ne_nil Nat.toDigits_ne_nil]
      exact hhead

/-- Only zero begins with a zero. -/
theorem eq_zero_of_toDigits (h : Nat.toDigits 10 n = '0' :: cs) : n = 0 := by
  by_contra hn
  have hhead := head_toDigits_ne_zero (Nat.pos_of_ne_zero hn)
  simp only [h, List.head_cons, ne_eq, not_true_eq_false] at hhead

/-- A numeral is read as its number, if that is below the bound. -/
theorem numeralBelow_toDigits (positive : 0 < bound) (n : Nat) :
    numeralBelow bound 10 (Nat.toDigits 10 n) = if n < bound then some n else none := by
  rw [numeralBelow_eq _ _ _ positive (by decide), numeral_ten isDigit_toDigits,
    Nat.ofDigitChars_ten_toDigits, Option.filter_some]
  simp only [decide_eq_true_eq]

theorem isNumeral_decimal (h : n < bound) : IsNumeral bound (decimal n).toList := by
  refine ⟨Nat.toDigits 10 n, .inl ?_, Nat.toDigits_ne_nil, isDigit_toDigits, ?_⟩
  · rw [decimal, String.toList_ofList]
  · rwa [Nat.ofDigitChars_ten_toDigits]

/-- A numeral has none of the marks that stand between the parts of a text. -/
theorem IsNumeral.not_mem (h : IsNumeral bound cs) (hplus : c ≠ '+') (hdigit : c.isDigit = false) :
    c ∉ cs := by
  intro hc
  obtain ⟨digits, hcs, -, hdigits, -⟩ := h
  have hmem : c ∈ digits := by
    rcases hcs with rfl | rfl
    · exact hc
    · exact (List.mem_cons.mp hc).resolve_left hplus
  rw [hdigits c hmem] at hdigit
  cases hdigit

end ReplicaChain.Text
