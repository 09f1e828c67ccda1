/-!
# TOML tables

A document defines its tables piece by piece: under a header, along the way to a deeper header, by
dotted keys, or all at once inside braces.  A table remembers in which of these ways it was written,
because that decides which later statement may still add to it.  Every key has one value.
-/

namespace ReplicaChain.Toml

inductive Form where
  /-- Under a header of its own. -/
  | header
  /-- On the way to a deeper header. -/
  | implied
  /-- On the way of a dotted key. -/
  | dotted
  /-- Between braces, which closes it. -/
  | inline
  deriving DecidableEq, Repr

/-- A value of a document.  No setting is a fraction or a date, so of these nothing is kept. -/
inductive Value where
  | string (s : String)
  | integer (n : Int)
  | boolean (b : Bool)
  | fraction
  | date
  | array (items : List Value)
  | table (form : Form) (entries : List (String × Value))
  /-- The tables of repeated double-bracket headers, the latest first. -/
  | tables (members : List (List (String × Value)))

/-- The entries of a table in the order in which they were defined. -/
abbrev Entries := List (String × Value)

namespace Entries

def replace (key : String) (v : Value) (entries : Entries) : Entries :=
  entries.map fun e ↦ if e.1 = key then (key, v) else e

/-- Changes the table at the end of a path.  Tables that are missing on the way are made, as
`dotted` or as implied ones.  A dotted key may not lead into a table that has a header, nothing
leads into a closed table, and a path leads into the latest of repeated tables.  The change is told
how the table that it gets was written. -/
def modifyAt (dotted : Bool) (change : Form → Entries → Option Entries) :
    (path : List String) → Form → Entries → Option Entries
  | [], form, entries => change form entries
  | key :: path, _, entries =>
    match entries.lookup key with
    | none => do
      let form := if dotted then Form.dotted else Form.implied
      let inner ← modifyAt dotted change path form []
      some (entries ++ [(key, .table form inner)])
    | some (.table form inner) =>
      if form = .inline ∨ (dotted ∧ form = .header) then none
      else do
        let inner ← modifyAt dotted change path form inner
        some (entries.replace key (.table form inner))
    | some (.tables (last :: earlier)) => do
      let last ← modifyAt dotted change path .header last
      some (entries.replace key (.tables (last :: earlier)))
    | some _ => none

/-- Defines a key that has no value yet. -/
def define (key : String) (v : Value) (entries : Entries) : Option Entries :=
  if (entries.lookup key).isSome then none else some (entries ++ [(key, v)])

/-- Defines a possibly dotted key.  A dotted key ends in a table that dotted keys have made. -/
def assign (path : List String) (key : String) (v : Value) (entries : Entries) : Option Entries :=
  entries.modifyAt true (fun form entries ↦
    if (form = .dotted) = path.isEmpty then none else define key v entries) path .header

/-- The entries that keys and values between braces define. -/
def ofPairs (pairs : List ((List String × String) × Value)) : Option Entries :=
  pairs.foldlM (fun entries (key, v) ↦ assign key.1 key.2 v entries) []

end Entries

end ReplicaChain.Toml
