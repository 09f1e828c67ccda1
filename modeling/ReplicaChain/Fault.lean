import ReplicaChain.Text.Number
import ReplicaChain.Text.Utf8

/-!
# Faults

Everything that can go wrong while a packet is read, relayed, applied or answered is one `Fault`.
A fault keeps its cause; `Fault.message` words it.  Two causes carry more than their wording shows:
a failing disk keeps its detail and a refusing follower keeps its reply body, and neither text ever
reaches a message.
-/

namespace ReplicaChain

/-! ## Input and output -/

inductive IoKind where
  | addrInUse
  | addrNotAvailable
  | alreadyExists
  | argumentListTooLong
  | brokenPipe
  | connectionAborted
  | connectionRefused
  | connectionReset
  | crossesDevices
  | deadlock
  | directoryNotEmpty
  | executableFileBusy
  | fileTooLarge
  | filesystemLoop
  | hostUnreachable
  | interrupted
  | invalidData
  | invalidFilename
  | invalidInput
  | isADirectory
  | networkDown
  | networkUnreachable
  | notADirectory
  | notConnected
  | notFound
  | notSeekable
  | other
  | outOfMemory
  | permissionDenied
  | quotaExceeded
  | readOnlyFilesystem
  | resourceBusy
  | staleNetworkFileHandle
  | storageFull
  | timedOut
  | tooManyLinks
  | uncategorized
  | unexpectedEof
  | unsupported
  | wouldBlock
  | writeZero
  deriving DecidableEq, Repr

def IoKind.all : List IoKind :=
  [.addrInUse, .addrNotAvailable, .alreadyExists, .argumentListTooLong, .brokenPipe,
    .connectionAborted, .connectionRefused, .connectionReset, .crossesDevices, .deadlock,
    .directoryNotEmpty, .executableFileBusy, .fileTooLarge, .filesystemLoop, .hostUnreachable,
    .interrupted, .invalidData, .invalidFilename, .invalidInput, .isADirectory, .networkDown,
    .networkUnreachable, .notADirectory, .notConnected, .notFound, .notSeekable, .other,
    .outOfMemory, .permissionDenied, .quotaExceeded, .readOnlyFilesystem, .resourceBusy,
    .staleNetworkFileHandle, .storageFull, .timedOut, .tooManyLinks, .uncategorized,
    .unexpectedEof, .unsupported, .wouldBlock, .writeZero]

/-- The wording of a failure of which nothing but the kind is known. -/
def IoKind.description : IoKind → String
  | addrInUse => "address in use"
  | addrNotAvailable => "address not available"
  | alreadyExists => "entity already exists"
  | argumentListTooLong => "argument list too long"
  | brokenPipe => "broken pipe"
  | connectionAborted => "connection aborted"
  | connectionRefused => "connection refused"
  | connectionReset => "connection reset"
  | crossesDevices => "cross-device link or rename"
  | deadlock => "deadlock"
  | directoryNotEmpty => "directory not empty"
  | executableFileBusy => "executable file busy"
  | fileTooLarge => "file too large"
  | filesystemLoop => "filesystem loop or indirection limit (e.g. symlink loop)"
  | hostUnreachable => "host unreachable"
  | interrupted => "operation interrupted"
  | invalidData => "invalid data"
  | invalidFilename => "invalid filename"
  | invalidInput => "invalid input parameter"
  | isADirectory => "is a directory"
  | networkDown => "network down"
  | networkUnreachable => "network unreachable"
  | notADirectory => "not a directory"
  | notConnected => "not connected"
  | notFound => "entity not found"
  | notSeekable => "seek on unseekable file"
  | other => "other error"
  | outOfMemory => "out of memory"
  | permissionDenied => "permission denied"
  | quotaExceeded => "quota exceeded"
  | readOnlyFilesystem => "read-only filesystem or storage medium"
  | resourceBusy => "resource busy"
  | staleNetworkFileHandle => "stale network file handle"
  | storageFull => "no storage space"
  | timedOut => "timed out"
  | tooManyLinks => "too many links"
  | uncategorized => "uncategorized error"
  | unexpectedEof => "unexpected end of file"
  | unsupported => "unsupported"
  | wouldBlock => "operation would block"
  | writeZero => "write zero"

structure IoFault where
  kind : IoKind
  text : String
  deriving DecidableEq, Repr

/-! ## Storage -/

inductive StorageFault where
  | paramMismatch
  | extentNotFound
  | extentDeleted
  | noSpace
  | disk (detail : String)
  | tryAgain
  | notLeader
  | other (text : String)
  deriving DecidableEq, Repr

/-- The wording of a storage fault.  The detail of a disk fault stays out of it. -/
def StorageFault.message : StorageFault → String
  | paramMismatch => "parameter mismatch"
  | extentNotFound => "extent not found"
  | extentDeleted => "extent has been deleted"
  | noSpace => "no space left on device"
  | disk _ => "disk error"
  | tryAgain => "try again"
  | notLeader => "not leader"
  | other text => "storage error: " ++ text

/-! ## Protocol and settings -/

/-- How a byte string breaks the rules of the packet format. -/
inductive Breach where
  /-- Fewer bytes than a header takes. -/
  | shortHeader (required available : Nat)
  /-- A result byte without a meaning. -/
  | unknownResult (code : UInt8)
  /-- An extent mode byte without a meaning. -/
  | unknownMode (code : UInt8)
  /-- An argument longer than the limit. -/
  | longArgument (size limit : Nat)
  /-- A payload shorter than its declared size. -/
  | shortPayload (declared held : Nat)
  /-- Follower descriptors that are not text. -/
  | garbledDescriptors (fault : Text.Utf8.Fault)
  /-- Any other breach, in words. -/
  | stated (text : String)
  deriving DecidableEq, Repr

def Breach.message : Breach → String
  | shortHeader required available =>
    "header needs " ++ Text.decimal required ++ " bytes, got " ++ Text.decimal available
  | unknownResult code => "unknown result code " ++ Text.hex code.toNat
  | unknownMode code => "unknown extent mode " ++ Text.decimal code.toNat
  | longArgument size limit =>
    "argument blob of " ++ Text.decimal size ++ " bytes exceeds " ++ Text.decimal limit
  | shortPayload declared held =>
    "payload declares " ++ Text.decimal declared ++ " bytes but holds " ++ Text.decimal held
  | garbledDescriptors fault => "follower descriptors are not utf-8: " ++ fault.message
  | stated text => text

inductive SettingsFault where
  | toml
  | json
  | unknownExtension (ext : String)
  | stated (text : String)
  deriving DecidableEq, Repr

def SettingsFault.message : SettingsFault → String
  | toml => "TOML parse error"
  | json => "JSON parse error"
  | unknownExtension ext => "Unknown config file extension: " ++ ext
  | stated text => text

/-! ## All faults -/

/-- Everything that can go wrong with a packet, a link or the settings. -/
inductive Fault where
  | io (fault : IoFault)
  | invalidMagic (byte : UInt8)
  | argumentLength (declared available : Nat)
  | hopCount (remaining : Int8)
  | unknownOpcode (code : UInt8)
  | payloadTooLarge (size : Nat)
  | checksum (expected actual : UInt32)
  | storage (fault : StorageFault)
  /-- A follower of the request has no link bound to it. -/
  | unlinked (address : String)
  | linksExhausted
  | linksDraining
  /-- A follower answered with a result other than `Ok`; `detail` is its reply body. -/
  | followerRefused (address : String) (code : UInt8) (detail : String)
  | requestMismatch (address : String) (expected actual : Int64)
  | protocol (breach : Breach)
  | settings (fault : SettingsFault)
  deriving DecidableEq, Repr

namespace Fault

/-- The wording of a fault, as it appears in reply bodies. -/
def message : Fault → String
  | io fault => "I/O error: " ++ fault.text
  | invalidMagic byte => "Invalid magic byte " ++ Text.hex byte.toNat
  | argumentLength declared available =>
    "ArgLenMismatchErr: declared " ++ Text.decimal declared ++ " bytes, " ++
      Text.decimal available ++ " present"
  | hopCount remaining => "BadNodesErr: remaining followers " ++ Text.signed remaining.toInt
  | unknownOpcode code => "unknown opcode " ++ Text.hex code.toNat
  | payloadTooLarge size =>
    "Payload too large: " ++ Text.decimal size ++ " bytes exceeds maximum"
  | checksum expected actual =>
    "CRC mismatch: expected " ++ Text.hex expected.toNat ++ ", got " ++ Text.hex actual.toNat
  | storage fault => fault.message
  | unlinked address => "ConnIsNullErr: no connection to follower " ++ address
  | linksExhausted => "Connection pool exhausted"
  | linksDraining => "Connection pool is draining"
  | followerRefused address code _ =>
    "Follower " ++ address ++ " replied with result code " ++ Text.hex code.toNat
  | requestMismatch address expected actual =>
    "Follower " ++ address ++ " answered request " ++ Text.signed actual.toInt ++
      ", expected " ++ Text.signed expected.toInt
  | protocol breach => "Protocol error: " ++ breach.message
  | settings fault => "Configuration error: " ++ fault.message

def timedOut (what : String) : Fault :=
  io ⟨.timedOut, what⟩

def isTimeout : Fault → Bool
  | io fault => fault.kind = .timedOut
  | _ => false

/-- Whether the peer ended the stream before the next packet was complete. -/
def isEndOfStream : Fault → Bool
  | io fault => fault.kind = .unexpectedEof
  | _ => false

end Fault

end ReplicaChain
