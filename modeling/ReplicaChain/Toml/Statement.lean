import ReplicaChain.Toml.Scalar
import ReplicaChain.Toml.Text

/-!
# TOML statements

A document is a sequence of statements, one to a line: a key with its value, the header of a table,
the header of one of several tables, or nothing but space and a comment.  Only arrays and long text
go over line ends.
-/

namespace ReplicaChain.Toml

open Text (Reader)
open Text.Reader

/-! ## Values -/

/-- Reads an array after its opening bracket.  The last item may be followed by a comma. -/
def arrayItems (item : Reader Value) : Reader Value := fun cs ↦ do
  let spaced : Reader Value := fun cs ↦
    (item (skipGaps cs)).map fun (v, rest) ↦ (v, skipGaps rest)
  match separated ',' spaced cs with
  | none => some (.array [], ← word [']'] (skipGaps cs))
  | some (items, rest) =>
    some (.array items, ← word [']'] (skipGaps (optionalWord [','] rest)))

def pair (item : Reader Value) : Reader ((List String × String) × Value) := fun cs ↦ do
  let (k, rest) ← key cs
  let (v, rest) ← item (skipBlanks (← word ['='] rest))
  some ((k, v), rest)

/-- Reads a table on one line after its opening brace. -/
def inlineEntries (item : Reader Value) : Reader Value := fun cs ↦ do
  let spaced : Reader ((List String × String) × Value) := fun cs ↦
    (pair item cs).map fun (p, rest) ↦ (p, skipBlanks rest)
  let (pairs, rest) := (separated ',' spaced cs).getD ([], skipBlanks cs)
  let rest ← word ['\x7d'] rest
  some (.table .inline (← Entries.ofPairs pairs), rest)

/-- Reads a value in which brackets and braces nest at most `depth` deep. -/
def value : (depth : Nat) → Reader Value
  | 0, cs => (text cs).map (fun (s, rest) ↦ (Value.string s, rest)) <|> scalar cs
  | depth + 1, cs =>
    match cs with
    | '[' :: rest => arrayItems (value depth) rest
    | '\x7b' :: rest => inlineEntries (value depth) rest
    | _ => (text cs).map (fun (s, rest) ↦ (Value.string s, rest)) <|> scalar cs

def maxDepth : Nat := 79

/-! ## Statements -/

inductive Statement where
  | empty
  | assignment (path : List String) (key : String) (v : Value)
  /-- The header of a table, `[path.key]`. -/
  | header (path : List String) (key : String)
  /-- The header of one of several tables, `[[path.key]]`. -/
  | member (path : List String) (key : String)

def headerBetween (left right : List Char) (form : List String → String → Statement) :
    Reader Statement := fun cs ↦ do
  let (k, rest) ← key (← word left cs)
  some (form k.1 k.2, ← word right rest)

/-- Reads a statement without the end of its line. -/
def statementBody : Reader Statement := fun cs ↦
  match cs with
  | [] => none
  | '#' :: _ | '\n' :: _ | '\r' :: _ => some (.empty, cs)
  | '[' :: '[' :: _ => headerBetween ['[', '['] [']', ']'] .member cs
  | '[' :: _ => headerBetween ['['] [']'] .header cs
  | _ => (pair (value maxDepth) cs).map fun ((k, v), rest) ↦ (.assignment k.1 k.2 v, rest)

/-- Reads a statement with the end of its line and the blanks before it. -/
def statement : Reader Statement := fun cs ↦ do
  let (s, rest) ← statementBody (skipBlanks cs)
  some (s, ← lineEnd rest)

end ReplicaChain.Toml
