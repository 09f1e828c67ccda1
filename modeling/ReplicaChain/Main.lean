import ReplicaChain.Node.Startup
import ReplicaChain.Settings.CommandLine
import ReplicaChain.Settings.Folder

/-!
# The data-node program

Reads the command line, writes a settings template or loads the settings, and then serves the packets
that arrive on standard input, answering them on standard output.  Everything that is decided is
decided by the library; this module reads and prints.
-/

namespace ReplicaChain

def generateTemplate (path : String) : IO UInt32 := do
  try
    IO.FS.writeFile path (Settings.template path)
    IO.println ("Generated default config at: " ++ path)
    return 0
  catch e =>
    IO.eprintln ("Failed to generate config: " ++ toString e)
    return 1

def loadSettings (path : String) : IO (Except String Settings) := do
  try
    let content ← IO.FS.readBinFile path
    return (Settings.ofBytes path content).mapError Fault.message
  catch e => return .error (toString e)

/-- Reads a stream to its end. -/
partial def readAll (stream : IO.FS.Stream) (read : ByteArray) : IO ByteArray := do
  let piece ← stream.read 65536
  if piece.isEmpty then return read else readAll stream (read ++ piece)

def serveStandard (s : Settings) : IO UInt32 := do
  let input ← readAll (← IO.getStdin) ByteArray.empty
  let now := Int64.ofNat (← IO.monoNanosNow)
  let served := Node.serve (Node.environment s .unreachable now) (Node.ofSettings s ())
    (.ofBytes input) .unbounded
  let output ← IO.getStdout
  output.write served.2.2.written
  output.flush
  match served.1 with
  | none => return 0
  | some fault =>
    IO.eprintln fault.message
    return 1

end ReplicaChain

open ReplicaChain

def main (args : List String) : IO UInt32 := do
  match Arguments.parse args with
  | .error fault =>
    if fault.exitCode = 0 then IO.print fault.message else IO.eprint fault.message
    return .ofNat fault.exitCode
  | .ok arguments =>
    match arguments.generate, arguments.config with
    | some path, _ => generateTemplate path
    | none, none => serveStandard arguments.settings
    | none, some path =>
      match ← loadSettings path with
      | .ok s => serveStandard s
      | .error message =>
        IO.eprintln ("Failed to load config file: " ++ message)
        return 1
