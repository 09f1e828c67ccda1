/-!
# Numbers as text

Decimal and hexadecimal numerals as the library prints and reads them.  Printing never pads;
reading an unsigned number admits one leading plus sign and any number of leading zeros, and
refuses what does not fit below a bound.
-/

namespace ReplicaChain.Text

def decimal (n : Nat) : String :=
  String.ofList (Nat.toDigits 10 n)

/-- The decimal numeral of an integer, with a minus sign when it is negative. -/
def signed : Int → String
  | .ofNat n => decimal n
  | .negSucc n => "-" ++ decimal (n + 1)

/-- The lower-case hexadecimal numeral with its `0x` mark. -/
def hex (n : Nat) : String :=
  "0x" ++ String.ofList (Nat.toDigits 16 n)

/-- The value of a digit to a base of at most sixteen. -/
def digitIn? (radix : Nat) (c : Char) : Option Nat :=
  let value :=
    if '0' ≤ c ∧ c ≤ '9' then some (c.toNat - '0'.toNat)
    else if 'a' ≤ c ∧ c ≤ 'f' then some (c.toNat - 'a'.toNat + 10)
    else if 'A' ≤ c ∧ c ≤ 'F' then some (c.toNat - 'A'.toNat + 10)
    else none
  value.filter (· < radix)

def isDigitIn (radix : Nat) (c : Char) : Bool :=
  (digitIn? radix c).isSome

/-- The number that digits to a base stand for; other characters do not count. -/
def numeral (radix : Nat) (cs : List Char) : Nat :=
  (cs.filterMap (digitIn? radix)).foldl (fun n d ↦ n * radix + d) 0

/-- Adds a digit to a base to the digits read so far, if the number stays below `bound`. -/
def pushDigit (bound radix n digit : Nat) : Option Nat :=
  if n * radix + digit < bound then some (n * radix + digit) else none

/-- The number that digits to a base stand for, if it is below `bound`; other characters do not
count.  Once the bound is reached, no further digit is looked at. -/
def numeralBelow (bound radix : Nat) (cs : List Char) : Option Nat :=
  (cs.filterMap (digitIn? radix)).foldlM (pushDigit bound radix) 0

def unsigned? (bound : Nat) (cs : List Char) : Option Nat :=
  let body :=
    match cs with
    | '+' :: rest => rest
    | _ => cs
  if body.isEmpty || body.any (!isDigitIn 10 ·) then none else numeralBelow bound 10 body

/-- Further digits never make a number smaller. -/
theorem le_foldl_digits (radix : Nat) (ds : List Nat) (n : Nat) (positive : 0 < radix) :
    n ≤ ds.foldl (fun n d ↦ n * radix + d) n := by
  induction ds generalizing n with
  | nil => exact Nat.le_refl n
  | cons d ds ih =>
    calc
      n ≤ n * radix := Nat.le_mul_of_pos_right n positive
      _ ≤ n * radix + d := Nat.le_add_right _ _
      _ ≤ ds.foldl (fun n d ↦ n * radix + d) (n * radix + d) := ih _

/-- What is below the bound in the end was below it all along. -/
theorem foldlM_pushDigit (bound radix : Nat) (ds : List Nat) (n : Nat) (small : n < bound)
    (positive : 0 < radix) :
    ds.foldlM (pushDigit bound radix) n =
      (some (ds.foldl (fun n d ↦ n * radix + d) n)).filter (· < bound) := by
  induction ds generalizing n with
  | nil => simp [Option.filter_some, small]
  | cons d ds ih =>
    rw [List.foldlM_cons, List.foldl_cons]
    by_cases h : n * radix + d < bound
    · simp [pushDigit, h, ih _ h]
    · have := Nat.le_trans (Nat.le_of_not_lt h) (le_foldl_digits radix ds (n * radix + d) positive)
      simp [pushDigit, h, Option.filter_some, Nat.not_lt.2 this]

/-- Reading below a bound reads the number and compares it. -/
theorem numeralBelow_eq (bound radix : Nat) (cs : List Char) (bounded : 0 < bound)
    (positive : 0 < radix) :
    numeralBelow bound radix cs = (some (numeral radix cs)).filter (· < bound) :=
  foldlM_pushDigit bound radix _ 0 bounded positive

def hexByte (b : UInt8) : List Char :=
  [Nat.digitChar (b.toNat / 16), Nat.digitChar (b.toNat % 16)]

end ReplicaChain.Text
