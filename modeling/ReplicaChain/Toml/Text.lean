import ReplicaChain.Text.Number
import ReplicaChain.Text.Reader

/-!
# TOML text

Text stands between double quotes, where a backslash introduces an escape, or between single
quotes, where it is taken as it is.  Tripled quotes enclose text of several lines; its line ends
are read as line feeds, one directly after the opening quotes does not count, and between double
quotes a backslash at the end of a line joins the line to the next text.
-/

namespace ReplicaChain.Toml

open Text (Reader isDigitIn numeral)
open Text.Reader

/-! ## White space -/

/-- A space or a tab. -/
def isBlank (c : Char) : Bool :=
  c = ' ' || c = '\t'

/-- Characters that may stand in a comment and in text: all but the control characters, of which
only the tab is admitted. -/
def isPrintable (c : Char) : Bool :=
  c = '\t' || (0x20 ≤ c.toNat && c.toNat ≠ 0x7F)

def skipBlanks (cs : List Char) : List Char :=
  cs.dropWhile isBlank

def newline : List Char → Option (List Char)
  | '\n' :: rest => some rest
  | '\r' :: '\n' :: rest => some rest
  | _ => none

def comment : List Char → Option (List Char)
  | '#' :: rest => some (rest.dropWhile isPrintable)
  | _ => none

/-- Reads what may stand after a statement, up to the end of the line or of the document. -/
def lineEnd (cs : List Char) : Option (List Char) :=
  let rest := skipBlanks cs
  match (comment rest).getD rest with
  | [] => some []
  | rest => newline rest

/-- Reads one piece of space inside an array: blanks, the end of a line, or a comment with it. -/
def gap : Reader Unit := fun cs ↦
  match cs with
  | '#' :: _ => do
    let rest ← newline (← comment cs)
    some ((), rest)
  | c :: rest => if isBlank c then some ((), rest) else (newline cs).map ((), ·)
  | [] => none

/-- Skips all space inside an array. -/
def skipGaps (cs : List Char) : List Char :=
  (many gap cs).2

/-! ## Escapes -/

/-- Reads the character with a code point of `n` hexadecimal digits. -/
def codePoint (n : Nat) : Reader Char := fun cs ↦ do
  let (ds, rest) ← exactly n (isDigitIn 16) cs
  let code := numeral 16 ds
  if code.isValidChar then some (Char.ofNat code, rest) else none

def escape : Reader Char
  | 'b' :: rest => some ('\x08', rest)
  | 't' :: rest => some ('\t', rest)
  | 'n' :: rest => some ('\n', rest)
  | 'f' :: rest => some ('\x0c', rest)
  | 'r' :: rest => some ('\r', rest)
  | '"' :: rest => some ('"', rest)
  | '\\' :: rest => some ('\\', rest)
  | 'u' :: rest => codePoint 4 rest
  | 'U' :: rest => codePoint 8 rest
  | _ => none

/-! ## Text on one line -/

/-- Reads one character between double quotes. -/
def basicCharacter : Reader Char
  | '"' :: _ => none
  | '\\' :: rest => escape rest
  | c :: rest => if isPrintable c then some (c, rest) else none
  | [] => none

def basicText : Reader String := fun cs ↦ do
  let (body, rest) := many basicCharacter (← word ['"'] cs)
  some (String.ofList body, ← word ['"'] rest)

def isLiteral (c : Char) : Bool :=
  isPrintable c && c ≠ '\''

def literalText : Reader String := fun cs ↦ do
  let rest ← word ['\''] cs
  some (String.ofList (rest.takeWhile isLiteral), ← word ['\''] (rest.dropWhile isLiteral))

/-! ## Text on several lines -/

/-- Reads one or two quotes that do not close the text. -/
def innerQuotes (quote : Char) (cs : List Char) : Option (List Char × List Char) :=
  let quotes := cs.takeWhile (· = quote)
  let rest := cs.dropWhile (· = quote)
  if (quotes.length = 1 ∨ quotes.length = 2) ∧ !rest.isEmpty then some (quotes, rest) else none

/-- Reads the closing quotes, before which one or two more may stand. -/
def closingQuotes (quote : Char) (cs : List Char) : Option (List Char × List Char) :=
  let quotes := (cs.takeWhile (· = quote)).take 5
  if quotes.length < 3 then none else some (quotes.drop 3, cs.drop quotes.length)

/-- Reads a backslash at the end of a line with all space after it. -/
def joinedLine (cs : List Char) : Option (List Char) := do
  let rest ← newline (skipBlanks (← word ['\\'] cs))
  let (_, rest) := many (fun cs ↦
    match cs with
    | c :: rest => if isBlank c then some ((), rest) else (newline cs).map ((), ·)
    | [] => none) rest
  some rest

/-- Reads one piece of text of several lines between tripled double quotes. -/
def basicPiece : Reader (List Char) := fun cs ↦
  match newline cs, joinedLine cs with
  | some rest, _ => some (['\n'], rest)
  | _, some rest => some ([], rest)
  | _, _ => innerQuotes '"' cs <|> (basicCharacter cs).map fun (c, rest) ↦ ([c], rest)

def literalPiece : Reader (List Char) := fun cs ↦
  match newline cs with
  | some rest => some (['\n'], rest)
  | none => innerQuotes '\'' cs <|> (exactly 1 isLiteral cs)

def longText (quote : Char) (piece : Reader (List Char)) : Reader String := fun cs ↦ do
  let rest ← word [quote, quote, quote] cs
  let (pieces, rest) := many piece ((newline rest).getD rest)
  let (last, rest) ← closingQuotes quote rest
  some (String.ofList (pieces.flatten ++ last), rest)

/-- Reads text in any of its four notations.  Tripled quotes are never an empty text. -/
def text : Reader String := fun cs ↦
  if (word ['"', '"', '"'] cs).isSome then longText '"' basicPiece cs
  else if (word ['\'', '\'', '\''] cs).isSome then longText '\'' literalPiece cs
  else basicText cs <|> literalText cs

/-! ## Keys -/

def isBareKey (c : Char) : Bool :=
  c.isAlphanum || c = '-' || c = '_'

/-- Reads one part of a key with the blanks around it. -/
def keyPart : Reader String := fun cs ↦ do
  let cs := skipBlanks cs
  let (part, rest) ←
    basicText cs <|> literalText cs <|>
      (run isBareKey cs).map fun (k, rest) ↦ (String.ofList k, rest)
  some (part, skipBlanks rest)

/-- Reads a possibly dotted key of fewer than eighty parts, the last of which is kept apart. -/
def key : Reader (List String × String) := fun cs ↦ do
  let (parts, rest) ← separated '.' keyPart cs
  if parts.length < 80 then (parts.getLast?).map fun last ↦ ((parts.dropLast, last), rest)
  else none

end ReplicaChain.Toml
