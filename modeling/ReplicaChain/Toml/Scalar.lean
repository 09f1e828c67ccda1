import ReplicaChain.Text.Number
import ReplicaChain.Text.Reader
import ReplicaChain.Toml.Value

/-!
# TOML numbers, dates and truth values

Integers are decimal with an optional sign, or hexadecimal, octal or binary without one, and fit in
64 bits with sign.  Single underscores may stand between digits.  A fraction or an exponent makes a
number a fraction, which must not grow beyond the largest finite double.  Dates and times of day
are checked against the calendar and the clock.
-/

namespace ReplicaChain.Toml

open Text (Reader digitIn? isDigitIn numeral numeralBelow)
open Text.Reader

/-! ## Numbers -/

/-- Reads digits with single underscores between them. -/
def digits (radix : Nat) : Reader (List Char) := fun cs ↦ do
  let (first, rest) ← exactly 1 (isDigitIn radix) cs
  let (more, rest) := many (fun cs ↦ exactly 1 (isDigitIn radix) (optionalWord ['_'] cs)) rest
  some (first ++ more.flatten, rest)

/-- Reads an optional sign; the flag tells a minus sign. -/
def sign : List Char → Bool × List Char
  | '-' :: rest => (true, rest)
  | '+' :: rest => (false, rest)
  | cs => (false, cs)

/-- Reads decimal digits without a leading zero. -/
def decimalDigits : Reader (List Char)
  | '0' :: rest => some (['0'], rest)
  | cs => digits 10 cs

def integer : Reader Int := fun cs ↦ do
  let based (radix : Nat) (rest : List Char) : Option (Int × List Char) := do
    let (ds, rest) ← digits radix rest
    some ((← numeralBelow 0x8000000000000000 radix ds : Nat), rest)
  match cs with
  | '0' :: 'x' :: rest => based 16 rest
  | '0' :: 'o' :: rest => based 8 rest
  | '0' :: 'b' :: rest => based 2 rest
  | _ =>
    let (negative, rest) := sign cs
    let (ds, rest) ← decimalDigits rest
    if negative then some (-(← numeralBelow 0x8000000000000001 10 ds : Nat), rest)
    else some ((← numeralBelow 0x8000000000000000 10 ds : Nat), rest)

/-- Whether the digits times a power of ten round to more than every finite double.  Numbers far
from the bound are told by their number of places alone, and places after the point do not count,
because the bound is whole. -/
def overflows (ds : List Char) (exponent : Int) : Bool :=
  let significant := ds.dropWhile (· = '0')
  let places := exponent + significant.length
  if significant.isEmpty ∨ places < 300 then false
  else if 400 < places then true
  else
    let whole := numeral 10 (significant.take places.toNat) * Nat.pow 10 exponent.toNat
    decide (Nat.pow 2 1024 - Nat.pow 2 970 ≤ whole)

def fractionDigits (cs : List Char) : Option (List Char × List Char) := do
  digits 10 (← word ['.'] cs)

/-- The number that the digits of an exponent stand for.  Once it has reached `2 ^ 16`, further
digits do not count. -/
def exponentNumeral (ds : List Char) : Nat :=
  (ds.filterMap (digitIn? 10)).foldl (fun n d ↦ if n < 0x10000 then n * 10 + d else n) 0

def exponent : Reader Int
  | c :: rest => do
    if c ≠ 'e' ∧ c ≠ 'E' then none
    else
      let (negative, rest) := sign rest
      let (ds, rest) ← digits 10 rest
      some (if negative then -(exponentNumeral ds : Int) else exponentNumeral ds, rest)
  | [] => none

/-- Reads a number with a point or an exponent, or one of the words for what is no number.  Only
numbers above zero are held to the bound. -/
def fraction (cs : List Char) : Option (List Char) :=
  let (negative, unsigned) := sign cs
  match word "inf".toList unsigned <|> word "nan".toList unsigned with
  | some rest => some rest
  | none => do
    let (whole, rest) ← decimalDigits unsigned
    let point := fractionDigits rest
    let (places, rest) := point.getD ([], rest)
    let power := exponent rest
    let (shift, rest) := power.getD (0, rest)
    if point.isNone ∧ power.isNone then none
    else if !negative && overflows (whole ++ places) (shift - places.length) then none
    else some rest

/-! ## Dates -/

/-- Reads a number of exactly `width` digits between two bounds. -/
def field (width least most : Nat) : Reader Nat := fun cs ↦ do
  let (ds, rest) ← exactly width (isDigitIn 10) cs
  let n := numeral 10 ds
  if least ≤ n ∧ n ≤ most then some (n, rest) else none

def daysOfMonth (year month : Nat) : Nat :=
  if month = 2 then
    if year % 4 = 0 ∧ (year % 100 ≠ 0 ∨ year % 400 = 0) then 29 else 28
  else if month = 4 ∨ month = 6 ∨ month = 9 ∨ month = 11 then 30
  else 31

def day (cs : List Char) : Option (List Char) := do
  let (year, rest) ← field 4 0 9999 cs
  let (month, rest) ← field 2 1 12 (← word ['-'] rest)
  let (_, rest) ← field 2 1 (daysOfMonth year month) (← word ['-'] rest)
  some rest

/-- Reads a time of day, which may have a leap second and any number of decimal places. -/
def time (cs : List Char) : Option (List Char) := do
  let (_, rest) ← field 2 0 23 cs
  let (_, rest) ← field 2 0 59 (← word [':'] rest)
  let (_, rest) ← field 2 0 60 (← word [':'] rest)
  match rest with
  | '.' :: places => (run (isDigitIn 10) places).map (·.2)
  | _ => some rest

def zone (cs : List Char) : Option (List Char) :=
  match cs with
  | 'Z' :: rest => some rest
  | 'z' :: rest => some rest
  | '+' :: rest | '-' :: rest => do
    let (_, rest) ← field 2 0 23 rest
    let (_, rest) ← field 2 0 59 (← word [':'] rest)
    some rest
  | _ => none

/-- Reads a day, a time, or a day with a time and possibly its zone. -/
def date (cs : List Char) : Option (List Char) :=
  match day cs with
  | none => time cs
  | some rest =>
    match rest with
    | c :: after =>
      if c = 'T' ∨ c = 't' ∨ c = ' ' then
        match time after with
        | some rest => some ((zone rest).getD rest)
        | none => some rest
      else some rest
    | [] => some rest

/-! ## Scalars -/

def numeric : Reader Value := fun cs ↦
  match date cs with
  | some rest => some (.date, rest)
  | none =>
    match fraction cs with
    | some rest => some (.fraction, rest)
    | none => (integer cs).map fun (n, rest) ↦ (.integer n, rest)

def scalar : Reader Value := fun cs ↦
  match word "true".toList cs, word "false".toList cs with
  | some rest, _ => some (.boolean true, rest)
  | _, some rest => some (.boolean false, rest)
  | _, _ => numeric cs

end ReplicaChain.Toml
