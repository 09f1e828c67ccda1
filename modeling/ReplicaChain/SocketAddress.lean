import ReplicaChain.Text.Number
import ReplicaChain.Text.Reader

/-!
# Socket addresses

An address and a port, in the two written forms `1.2.3.4:80` and `[1::2]:80`.  Octets have at most
three digits and no leading zero.  A double colon stands for at least one group of zeros, and the
last two groups may be written as octets.  Writing uses the shortest form: the first longest run of
two or more zero groups becomes a double colon, and a mapped octet address keeps its octets.
-/

namespace ReplicaChain

inductive SocketAddress where
  | v4 (octets : List UInt8) (port : UInt16)
  | v6 (groups : List UInt16) (scope : UInt32) (port : UInt16)
  deriving DecidableEq, Repr

namespace SocketAddress

def portNumber : SocketAddress → UInt16
  | v4 _ port => port
  | v6 _ _ port => port

/-! ## Reading -/

open Text.Reader (word)

/-- Reads the longest nonempty run of digits as a number below `bound`. -/
def number (radix bound : Nat) (cs : List Char) : Option (Nat × List Char) :=
  let digits := cs.takeWhile (Text.isDigitIn radix)
  if digits.isEmpty then none
  else (Text.numeralBelow bound radix digits).map (·, cs.drop digits.length)

def octet (cs : List Char) : Option (UInt8 × List Char) := do
  let (n, rest) ← number 10 256 cs
  let digits := cs.length - rest.length
  if 3 < digits ∨ (cs.head? = some '0' ∧ 1 < digits) then none
  else some (.ofNat n, rest)

/-- Reads `n` more octets, each after a dot. -/
def octetsAfterDots : (n : Nat) → List Char → Option (List UInt8 × List Char)
  | 0, cs => some ([], cs)
  | n + 1, cs => do
    let (o, rest) ← octet (← word ['.'] cs)
    let (os, rest) ← octetsAfterDots n rest
    some (o :: os, rest)

def octets (cs : List Char) : Option (List UInt8 × List Char) := do
  let (o, rest) ← octet cs
  let (os, rest) ← octetsAfterDots 3 rest
  some (o :: os, rest)

/-- Reads one group of up to four hexadecimal digits. -/
def group (cs : List Char) : Option (UInt16 × List Char) := do
  let (n, rest) ← number 16 0x10000 cs
  if 4 < cs.length - rest.length then none else some (.ofNat n, rest)

def groupsOfOctets : List UInt8 → List UInt16
  | a :: b :: rest => (a.toUInt16 <<< 8 ||| b.toUInt16) :: groupsOfOctets rest
  | _ => []

/-- Reads at most `limit` groups separated by colons, the last two of which may be octets.  `first`
tells that no group stands before; the flag of the result tells that octets were read. -/
def groups (first : Bool) : (limit : Nat) → List Char → List UInt16 × Bool × List Char
  | 0, cs => ([], false, cs)
  | limit + 1, cs =>
    match if first then some cs else word [':'] cs with
    | none => ([], false, cs)
    | some body =>
      match if limit = 0 then none else octets body with
      | some (os, rest) => (groupsOfOctets os, true, rest)
      | none =>
        match group body with
        | none => ([], false, cs)
        | some (g, rest) =>
          let (gs, hasOctets, rest) := groups false limit rest
          (g :: gs, hasOctets, rest)

/-- Reads eight groups, possibly shortened by a double colon. -/
def eightGroups (cs : List Char) : Option (List UInt16 × List Char) :=
  let (head, hasOctets, rest) := groups true 8 cs
  if head.length = 8 then some (head, rest)
  else if hasOctets then none
  else do
    let rest ← word [':'] (← word [':'] rest)
    let (tail, _, rest) := groups true (7 - head.length) rest
    some (head ++ List.replicate (8 - head.length - tail.length) 0 ++ tail, rest)

def port (cs : List Char) : Option (UInt16 × List Char) := do
  let (n, rest) ← number 10 0x10000 (← word [':'] cs)
  some (.ofNat n, rest)

def scope (cs : List Char) : Option (UInt32 × List Char) := do
  let (n, rest) ← number 10 0x100000000 (← word ['%'] cs)
  some (.ofNat n, rest)

def readV4 (cs : List Char) : Option (SocketAddress × List Char) := do
  let (os, rest) ← octets cs
  let (p, rest) ← port rest
  some (v4 os p, rest)

def readV6 (cs : List Char) : Option (SocketAddress × List Char) := do
  let (gs, rest) ← eightGroups (← word ['['] cs)
  let (s, rest) := (scope rest).getD (0, rest)
  let (p, rest) ← port (← word [']'] rest)
  some (v6 gs s p, rest)

def parse? (s : String) : Option SocketAddress :=
  let cs := s.toList
  let whole (r : Option (SocketAddress × List Char)) : Option SocketAddress :=
    (r.filter (·.2.isEmpty)).map (·.1)
  match readV4 cs with
  | some r => whole (some r)
  | none => whole (readV6 cs)

/-! ## Writing -/

def octetText (os : List UInt8) : String :=
  String.intercalate "." (os.map fun o ↦ Text.decimal o.toNat)

def groupText (gs : List UInt16) : String :=
  String.intercalate ":" (gs.map fun g ↦ String.ofList (Nat.toDigits 16 g.toNat))

def octetsOfGroup (g : UInt16) : List UInt8 :=
  [(g >>> 8).toUInt8, g.toUInt8]

/-- The length of the run of zeros at each place of a list. -/
def zeroRuns : List UInt16 → List Nat
  | [] => []
  | g :: gs =>
    let runs := zeroRuns gs
    (if g = 0 then runs.headD 0 + 1 else 0) :: runs

/-- The address of groups, with its longest run of zeros shortened. -/
def groupsText (gs : List UInt16) : String :=
  let runs := zeroRuns gs
  let longest := runs.foldl max 0
  match gs with
  | [0, 0, 0, 0, 0, 0xFFFF, a, b] =>
    "::ffff:" ++ octetText (octetsOfGroup a ++ octetsOfGroup b)
  | _ =>
    if longest < 2 then groupText gs
    else
      let start := runs.findIdx (· = longest)
      groupText (gs.take start) ++ "::" ++ groupText (gs.drop (start + longest))

def text : SocketAddress → String
  | v4 os p => octetText os ++ ":" ++ Text.decimal p.toNat
  | v6 gs s p =>
    "[" ++ groupsText gs ++ (if s = 0 then "" else "%" ++ Text.decimal s.toNat) ++ "]:" ++
      Text.decimal p.toNat

end SocketAddress

end ReplicaChain
