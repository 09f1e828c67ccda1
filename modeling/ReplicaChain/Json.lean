import ReplicaChain.Text.Number
import ReplicaChain.Text.Reader

/-!
# JSON

Reading JSON documents.  Objects keep all their entries in order, also repeated ones.  A text may hold
escapes of half a surrogate pair, which make it no sequence of characters; such a text is a value all
the same, but it has no characters to give.  Of numbers only the numerals without sign, fraction and
exponent that stand for a word of 64 bits are kept.
-/

namespace ReplicaChain

inductive Json where
  | null
  | boolean (b : Bool)
  /-- A word in digits alone. -/
  | natural (n : Nat)
  /-- A number with a sign, a fraction or an exponent, or one that is no word. -/
  | number
  /-- A text, or nothing when it has half a surrogate pair. -/
  | string (s : Option String)
  | array (items : List Json)
  | object (entries : List (Option String × Json))

namespace Json

open Text (Reader isDigitIn numeral)
open Text.Reader

def isSpace (c : Char) : Bool :=
  c = ' ' || c = '\t' || c = '\n' || c = '\r'

def skipSpace (cs : List Char) : List Char :=
  cs.dropWhile isSpace

/-! ## Text -/

/-- Reads a code point or, from an escape, half of a surrogate pair, between quotes. -/
def codeUnit : Reader Nat
  | '"' :: _ => none
  | '\\' :: 'u' :: rest => do
    let (ds, rest) ← exactly 4 (isDigitIn 16) rest
    some (numeral 16 ds, rest)
  | '\\' :: c :: rest =>
    match c with
    | '"' | '\\' | '/' => some (c.toNat, rest)
    | 'b' => some (8, rest)
    | 'f' => some (12, rest)
    | 'n' => some (10, rest)
    | 'r' => some (13, rest)
    | 't' => some (9, rest)
    | _ => none
  | c :: rest => if c.toNat < 0x20 then none else some (c.toNat, rest)
  | [] => none

/-- The characters that code units stand for, after those in `read`, which stand in reverse.  Every
half of a pair must have its other half. -/
def characters : List Nat → (read : List Char) → Option (List Char)
  | [], read => some read.reverse
  | [unit], read =>
    if 0xD800 ≤ unit ∧ unit < 0xE000 then none else some (Char.ofNat unit :: read).reverse
  | high :: low :: rest, read =>
    if 0xD800 ≤ high ∧ high < 0xDC00 then
      if 0xDC00 ≤ low ∧ low < 0xE000 then
        let c := Char.ofNat (0x10000 + (high - 0xD800) * 0x400 + (low - 0xDC00))
        characters rest (c :: read)
      else none
    else if 0xDC00 ≤ high ∧ high < 0xE000 then none
    else characters (low :: rest) (Char.ofNat high :: read)

def text : Reader (Option String) := fun cs ↦ do
  let (units, rest) := many codeUnit (← word ['"'] cs)
  some ((characters units []).map String.ofList, ← word ['"'] rest)

/-! ## Numbers -/

/-- Reads digits without a leading zero. -/
def wholeDigits : Reader (List Char)
  | '0' :: rest => some (['0'], rest)
  | cs => run (isDigitIn 10) cs

def exponent (cs : List Char) : Option (List Char) := do
  let rest ← word ['e'] cs <|> word ['E'] cs
  let rest ← (word ['+'] rest <|> word ['-'] rest).getD rest |> run (isDigitIn 10)
  some rest.2

/-- Reads what may stand after the digits of a number; the flag tells whether anything does. -/
def numberTail (cs : List Char) : Option (Bool × List Char) := do
  match cs with
  | '.' :: places =>
    let (_, rest) ← run (isDigitIn 10) places
    match rest with
    | 'e' :: _ | 'E' :: _ => some (true, ← exponent rest)
    | _ => some (true, rest)
  | 'e' :: _ | 'E' :: _ => some (true, ← exponent cs)
  | _ => some (false, cs)

def numberValue : Reader Json
  | '-' :: cs => do
    let (_, rest) ← wholeDigits cs
    let (_, rest) ← numberTail rest
    some (.number, rest)
  | cs => do
    let (ds, rest) ← wholeDigits cs
    let (more, rest) ← numberTail rest
    let word := if more then none else Text.numeralBelow 0x10000000000000000 10 ds
    some (word.elim .number .natural, rest)

/-! ## Values -/

/-- Reads values separated by commas up to a closing character, after the opening one. -/
def sequence {α : Type} (closing : Char) (item : Reader α) : Reader (List α) := fun cs ↦
  match word [closing] (skipSpace cs) with
  | some rest => some ([], rest)
  | none => do
    let spaced : Reader α := fun cs ↦ (item (skipSpace cs)).map fun (a, rest) ↦ (a, skipSpace rest)
    let (items, rest) ← separated ',' spaced cs
    some (items, ← word [closing] rest)

/-- Reads a value in which brackets and braces nest less than `depth` deep. -/
def value : (depth : Nat) → Reader Json
  | 0, _ => none
  | depth + 1, cs =>
    match cs with
    | '[' :: rest => (sequence ']' (value depth) rest).map fun (items, rest) ↦ (array items, rest)
    | '\x7b' :: rest =>
      let entry : Reader (Option String × Json) := fun cs ↦ do
        let (k, rest) ← text cs
        let (v, rest) ← value depth (skipSpace (← word [':'] (skipSpace rest)))
        some ((k, v), rest)
      (sequence '\x7d' entry rest).map fun (entries, rest) ↦ (object entries, rest)
    | '"' :: _ => (text cs).map fun (s, rest) ↦ (string s, rest)
    | _ =>
      match word "null".toList cs, word "true".toList cs, word "false".toList cs with
      | some rest, _, _ => some (null, rest)
      | _, some rest, _ => some (boolean true, rest)
      | _, _, some rest => some (boolean false, rest)
      | _, _, _ => numberValue cs

/-- Reads a document.  A document cannot nest deeper than it has characters. -/
def parse? (s : String) : Option Json := do
  let cs := s.toList
  let (v, rest) ← value (cs.length + 1) (skipSpace cs)
  if (skipSpace rest).isEmpty then some v else none

end Json

end ReplicaChain
