import ReplicaChain.Bytes.Slice
import ReplicaChain.Fault

/-!
# Follower descriptors

A packet names the followers that it is to be relayed to in its argument: one entry after another,
each closed by a comma.  An entry is an address, normally preceded by its position in the list and a
colon.  Since an address has a colon of its own, a leading number is a position only if another
colon is left after it; an entry without one is an address as it stands.
-/

namespace ReplicaChain.Follower

/-- The entries of a descriptor text, each closed by a comma.  Text after the last comma is no
entry; `read` holds the characters of the entry under way, last first. -/
def entriesFrom (read : List Char) : List Char → List (List Char)
  | [] => []
  | c :: cs => if c = ',' then read.reverse :: entriesFrom [] cs else entriesFrom (c :: read) cs

def entries (cs : List Char) : List (List Char) :=
  entriesFrom [] cs

/-- The address of an entry, without its position. -/
def addressOf (entry : List Char) : List Char :=
  match entry.dropWhile (· ≠ ':') with
  | [] => entry
  | _ :: address =>
    if ':' ∈ address ∧ (Text.unsigned? 0x100000000 (entry.takeWhile (· ≠ ':'))).isSome then address
    else entry

/-- Reads the addresses from the first `declared` bytes of an argument. -/
def parse (argument : ByteArray) (declared : Nat) : Except Fault (List String) :=
  if argument.size < declared then .error (.argumentLength declared argument.size)
  else
    match Text.Utf8.decode (Bytes.take declared argument) with
    | .error fault => .error (.protocol (.garbledDescriptors fault))
    | .ok text => .ok ((entries text.toList).map fun entry ↦ String.ofList (addressOf entry))

/-- The entries for a list of addresses, counted from `i`. -/
def encodeFrom (i : Nat) : List String → String
  | [] => ""
  | address :: rest => Text.decimal i ++ ":" ++ address ++ "," ++ encodeFrom (i + 1) rest

def encode (addresses : List String) : String :=
  encodeFrom 0 addresses

/-- Refuses a negative number of remaining followers. -/
def checkHopCount (remaining : Int8) : Except Fault Unit :=
  if remaining < 0 then .error (.hopCount remaining) else .ok ()

end ReplicaChain.Follower
