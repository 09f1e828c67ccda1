import ReplicaChain.Settings.Basic

/-!
# The command line

A node is started with switches.  Some take a value, which is attached with an equals sign, directly
after a letter, or the next argument, unless that looks like a switch itself.  A value is checked when
the next switch has been recognised or the command line ends, so of an unknown switch and a bad value
before it the unknown switch is reported.  No switch may be used twice, and there are no other
arguments.
-/

namespace ReplicaChain

inductive Switch where
  | listen
  | cluster
  | clientTimeout
  | followerTimeout
  | maxLinks
  | noMetrics
  | config
  | generate
  | help
  | version
  deriving DecidableEq, Repr

namespace Switch

def ofName? : String → Option Switch
  | "listen" => some listen
  | "cluster-id" => some cluster
  | "client-read-timeout" => some clientTimeout
  | "follower-read-timeout" => some followerTimeout
  | "max-connections" => some maxLinks
  | "no-metrics" => some noMetrics
  | "config" => some config
  | "gen-config" => some generate
  | "help" => some help
  | "version" => some version
  | _ => none

def ofLetter? : Char → Option Switch
  | 'l' => some listen
  | 'c' => some config
  | 'h' => some help
  | 'V' => some version
  | _ => none

def takesValue : Switch → Bool
  | noMetrics | help | version => false
  | _ => true

end Switch

/-- Why a command line starts no node. -/
inductive UsageFault where
  | displayHelp
  | displayVersion
  /-- A value is missing, or empty where it names a file. -/
  | invalidValue
  | valueValidation
  /-- A value for a switch that takes none. -/
  | tooManyValues
  | unknownArgument
  /-- A switch that is used twice. -/
  | argumentConflict
  deriving DecidableEq, Repr

def UsageFault.exitCode : UsageFault → Nat
  | displayHelp | displayVersion => 0
  | _ => 2

def usage : String :=
  "Replica-chain data-node\n\n" ++
  "Usage: datanode [OPTIONS]\n\n" ++
  "Options:\n" ++
  "  -l, --listen <LISTEN>\n" ++
  "      --cluster-id <CLUSTER_ID>\n" ++
  "      --client-read-timeout <SECONDS>    0 waits indefinitely\n" ++
  "      --follower-read-timeout <SECONDS>  0 waits indefinitely\n" ++
  "      --max-connections <COUNT>\n" ++
  "      --no-metrics\n" ++
  "  -c, --config <PATH>\n" ++
  "      --gen-config <PATH>\n" ++
  "  -h, --help\n" ++
  "  -V, --version\n"

def UsageFault.message : UsageFault → String
  | displayHelp => usage
  | displayVersion => "datanode 0.1.0\n"
  | invalidValue => "error: a value is required\n"
  | valueValidation => "error: invalid value\n"
  | tooManyValues => "error: unexpected value\n"
  | unknownArgument => "error: unexpected argument\n"
  | argumentConflict => "error: an argument cannot be used multiple times\n"

structure Arguments where
  listen : SocketAddress := ({} : Settings).listen
  cluster : String := ({} : Settings).cluster
  clientTimeout : UInt64 := ({} : Settings).clientTimeout
  followerTimeout : UInt64 := ({} : Settings).followerTimeout
  maxLinks : UInt64 := ({} : LinkSettings).maxLinks
  noMetrics : Bool := false
  /-- The settings file to be read. -/
  config : Option String := none
  /-- The template file to be written. -/
  generate : Option String := none
  deriving DecidableEq, Repr

/-- A switch whose value has not been checked yet. -/
inductive Pending where
  | nothing
  | awaiting (s : Switch)
  | given (s : Switch) (value : String)
  deriving DecidableEq, Repr

/-- A command line that has been read in part. -/
structure Scan where
  arguments : Arguments := {}
  used : List Switch := []
  pending : Pending := .nothing
  deriving DecidableEq, Repr

namespace Arguments

def word (value : String) : Except UsageFault UInt64 :=
  (Text.unsigned? 0x10000000000000000 value.toList).elim (.error .valueValidation) fun n ↦ .ok (.ofNat n)

def file (value : String) : Except UsageFault String :=
  if value.isEmpty then .error .invalidValue else .ok value

def assign (a : Arguments) (value : String) : Switch → Except UsageFault Arguments
  | .listen =>
    (SocketAddress.parse? value).elim (.error .valueValidation) fun listen ↦ .ok { a with listen }
  | .cluster => .ok { a with cluster := value }
  | .clientTimeout => do return { a with clientTimeout := ← word value }
  | .followerTimeout => do return { a with followerTimeout := ← word value }
  | .maxLinks => do return { a with maxLinks := ← word value }
  | .noMetrics => .ok { a with noMetrics := true }
  | .config => do return { a with config := some (← file value) }
  | .generate => do return { a with generate := some (← file value) }
  | .help => .error .displayHelp
  | .version => .error .displayVersion

end Arguments

namespace Scan

def use (scan : Scan) (s : Switch) (value : String) : Except UsageFault Scan :=
  if s ∈ scan.used then .error .argumentConflict
  else do
    let arguments ← scan.arguments.assign value s
    return { scan with arguments, used := s :: scan.used }

/-- Checks the value that has not been checked yet. -/
def settle (scan : Scan) : Except UsageFault Scan :=
  match scan.pending with
  | .nothing => .ok scan
  | .awaiting _ => .error .invalidValue
  | .given s value => { scan with pending := .nothing }.use s value

/-- Reads a switch that has been recognised, with the value attached to it. -/
def switch (scan : Scan) (s : Switch) : (value : Option String) → Except UsageFault Scan
  | some value => do (← scan.settle).use s value
  | none => do
    let scan ← scan.settle
    if s.takesValue then return { scan with pending := .awaiting s } else scan.use s ""

def long (scan : Scan) (body : List Char) : Except UsageFault Scan :=
  let name := String.ofList (body.takeWhile (· ≠ '='))
  match Switch.ofName? name, body.dropWhile (· ≠ '=') with
  | none, _ => .error .unknownArgument
  | some s, [] => scan.switch s none
  | some s, _ :: value =>
    if s.takesValue then scan.switch s (some (String.ofList value)) else .error .tooManyValues

/-- Reads switches by their letters.  The first that takes a value takes the rest of the letters. -/
def letters (scan : Scan) : List Char → Except UsageFault Scan
  | [] => .ok scan
  | c :: rest =>
    match Switch.ofLetter? c with
    | none => .error .unknownArgument
    | some s =>
      if s.takesValue then
        match rest with
        | [] => scan.switch s none
        | '=' :: value => scan.switch s (some (String.ofList value))
        | value => scan.switch s (some (String.ofList value))
      else do letters (← scan.switch s none) rest

def plain (scan : Scan) (value : String) : Except UsageFault Scan :=
  match scan.pending with
  | .awaiting s => .ok { scan with pending := .given s value }
  | _ => .error .unknownArgument

/-- Reads the arguments one after another.  After a double dash none may follow. -/
def run (scan : Scan) : List String → Except UsageFault Scan
  | [] => scan.settle
  | arg :: rest =>
    match arg.toList with
    | ['-', '-'] => if rest.isEmpty then scan.settle else .error .unknownArgument
    | '-' :: '-' :: body => do run (← scan.long body) rest
    | '-' :: c :: body => do run (← scan.letters (c :: body)) rest
    | _ => do run (← scan.plain arg) rest

end Scan

def Arguments.parse (args : List String) : Except UsageFault Arguments :=
  (({} : Scan).run args).map (·.arguments)

def Arguments.settings (a : Arguments) : Settings where
  listen := a.listen
  cluster := a.cluster
  clientTimeout := a.clientTimeout
  followerTimeout := a.followerTimeout
  links := { maxLinks := a.maxLinks }
  latency := { enabled := !a.noMetrics }

end ReplicaChain
