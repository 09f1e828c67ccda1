import ReplicaChain.Bytes.BigEndian
import ReplicaChain.Fault
import ReplicaChain.SocketAddress

/-!
# Looking addresses up

A text that is no socket address may still name one: its part before the last colon is looked up as
a host and the rest is the port.  The host is an address of its own, possibly in the loose notation
of one to four numbers, or a name.  No server answers here, so that only the name of this host leads
to an address.  A text that cannot be the name of a host is refused without asking.
-/

namespace ReplicaChain.SocketAddress

/-! ## Loose octets -/

/-- Reads a number that is decimal, octal after a zero, or hexadecimal after `0x`. -/
def looseNumber? (cs : List Char) : Option Nat := do
  let (n, rest) ←
    match cs with
    | '0' :: 'x' :: ds | '0' :: 'X' :: ds => number 16 0x100000000 ds
    | '0' :: d :: ds => number 8 0x100000000 (d :: ds)
    | ds => number 10 0x100000000 ds
  if rest.isEmpty then some n else none

/-- The octets that up to four numbers with dots between them stand for.  All but the last number are
octets, and the last one fills the places that are left. -/
def looseOctets? (host : String) : Option (List UInt8) := do
  let numbers ← (host.splitOn ".").mapM (looseNumber? ·.toList)
  let last ← numbers.getLast?
  let leading := numbers.dropLast
  let left := 4 - leading.length
  if leading.length < 4 ∧ leading.all (· < 256) ∧ last < Nat.pow 256 left then
    some (leading.map .ofNat ++ Bytes.BigEndian.encode left last)
  else none

def looseGroups? (host : String) : Option (List UInt16 × UInt32) := do
  let (gs, rest) ← eightGroups host.toList
  let (s, rest) := (scope rest).getD (0, rest)
  if rest.isEmpty then some (gs, s) else none

/-! ## Names -/

/-- Whether a text is one part of the name of a host. -/
def isLabel (s : String) : Bool :=
  !s.isEmpty && s.utf8ByteSize ≤ 63 && s.toList.all fun c ↦ c.isAlphanum || c = '-' || c = '_'

/-- Whether a text can be the name of a host: parts with dots between them, possibly with a last dot,
of at most 253 characters, which do not begin with a hyphen. -/
def isHostName (host : String) : Bool :=
  let parts := host.splitOn "."
  let parts := if parts.getLast? = some "" then parts.dropLast else parts
  host = "." ||
    (parts.all isLabel && (".".intercalate parts).utf8ByteSize ≤ 253 && !host.isEmpty &&
      host.toList.head? ≠ some '-')

def lookupFault (reason : String) : IoFault :=
  ⟨.uncategorized, "failed to lookup address information: " ++ reason⟩

def lookUp (host : String) (port : UInt16) : Except IoFault SocketAddress :=
  if host.contains '\x00' then
    .error ⟨.invalidInput, "file name contained an unexpected NUL byte"⟩
  else
    match looseOctets? host, looseGroups? host with
    | some os, _ => .ok (v4 os port)
    | none, some (gs, s) => .ok (v6 gs s port)
    | none, none =>
      if host.toLower = "localhost" then .ok (v4 [127, 0, 0, 1] port)
      else if isHostName host then .error (lookupFault "Temporary failure in name resolution")
      else .error (lookupFault "Name or service not known")

/-! ## Addresses as they are written -/

/-- What an address to be dialed turns out to be. -/
inductive Resolution where
  | address (a : SocketAddress)
  /-- A text that has to be looked up first, with what comes of it. -/
  | lookup (found : Except IoFault SocketAddress)

def resolve (s : String) : Resolution :=
  match parse? s with
  | some a => .address a
  | none =>
    let reversed := s.toList.reverse
    match reversed.dropWhile (· ≠ ':') with
    | [] => .lookup (.error ⟨.invalidInput, "invalid socket address"⟩)
    | _ :: host =>
      match Text.unsigned? 0x10000 (reversed.takeWhile (· ≠ ':')).reverse with
      | none => .lookup (.error ⟨.invalidInput, "invalid port value"⟩)
      | some p => .lookup (lookUp (String.ofList host.reverse) (.ofNat p))

def Resolution.found : Resolution → Except IoFault SocketAddress
  | address a => .ok a
  | lookup found => found

end ReplicaChain.SocketAddress
