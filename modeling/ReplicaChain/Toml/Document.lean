import ReplicaChain.Toml.Statement

/-!
# TOML documents

The meaning of a document is the table that its statements define one after another.  A header opens
a table, to which the keys after it belong until the next header.  Reading a document succeeds only
if every statement can be read and may define what it defines.
-/

namespace ReplicaChain.Toml

namespace Entries

/-- Opens a table under a header.  A table that so far was only implied keeps what deeper headers
have put into it; any other table of that name cannot be opened again. -/
def openTable (path : List String) (key : String) (entries : Entries) : Option Entries :=
  entries.modifyAt false (fun _ entries ↦
    match entries.lookup key with
    | none => some (entries ++ [(key, .table .header [])])
    | some (.table .implied inner) => some (entries.replace key (.table .header inner))
    | some _ => none) path .header

def openMember (path : List String) (key : String) (entries : Entries) : Option Entries :=
  entries.modifyAt false (fun _ entries ↦
    match entries.lookup key with
    | none => some (entries ++ [(key, .tables [[]])])
    | some (.tables members) => some (entries.replace key (.tables ([] :: members)))
    | some _ => none) path .header

end Entries

/-- What the statements so far have defined, and the path to the open table. -/
structure Progress where
  defined : Entries
  place : List String

namespace Progress

def start : Progress :=
  ⟨[], []⟩

def apply (p : Progress) : Statement → Option Progress
  | .empty => some p
  | .assignment path key v => do
    let defined ← p.defined.modifyAt false (fun _ entries ↦ entries.assign path key v) p.place .header
    some { p with defined }
  | .header path key => do
    some ⟨← p.defined.openTable path key, path ++ [key]⟩
  | .member path key => do
    some ⟨← p.defined.openMember path key, path ++ [key]⟩

end Progress

def skipMark : List Char → List Char
  | '\uFEFF' :: rest => rest
  | cs => cs

def parse? (s : String) : Option Entries :=
  let (statements, rest) := Text.Reader.many statement (skipMark s.toList)
  if (skipBlanks rest).isEmpty then
    (statements.foldlM Progress.apply Progress.start).map (·.defined)
  else none

end ReplicaChain.Toml
