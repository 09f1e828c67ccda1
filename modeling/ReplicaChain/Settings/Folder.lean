import ReplicaChain.Settings.Document
import ReplicaChain.Settings.Template

/-!
# Settings files

Settings are kept in a file whose extension names its notation.  Generating writes a template and
loading reads settings; both say why they fail.

Files and folders are told by the names on the way to them from the root, the last name first.  A
path starts at the root or at the folder that one is in, and it leads through folders only.
-/

namespace ReplicaChain

/-- The folders that there are beside the root, the files in them, and the folder that one is in. -/
structure Folder where
  files : List (List String × ByteArray)
  folders : List (List String)
  here : List String

namespace Folder

def empty : Folder :=
  ⟨[], [], []⟩

/-! ## Paths -/

def missing : Fault :=
  .io ⟨.notFound, "No such file or directory (os error 2)"⟩

def isFolder : Fault :=
  .io ⟨.isADirectory, "Is a directory (os error 21)"⟩

def isFile : Fault :=
  .io ⟨.notADirectory, "Not a directory (os error 20)"⟩

def tooLong : Fault :=
  .io ⟨.invalidFilename, "File name too long (os error 36)"⟩

def hasNul : Fault :=
  .io ⟨.invalidInput, "file name contained an unexpected NUL byte"⟩

/-- The segments of a path, which stand between its slashes. -/
def segments (path : String) : List String :=
  (path.toList.splitOn '/').map String.ofList

/-- The file of a name in a folder, or why there is none. -/
def lookup (f : Folder) (name : String) (folder : List String) : Except Fault ByteArray :=
  if 255 < name.utf8ByteSize then .error tooLong
  else (f.files.lookup (name :: folder)).elim (.error missing) .ok

inductive Place where
  | folder
  /-- A name in a folder, which a file may have.  The flag tells that the path ends in a slash, as only
  that of a folder does. -/
  | entry (name : String) (folder : List String) (slash : Bool)

/-- Where the steps of a path lead from a folder, or why they lead nowhere. -/
def follow (f : Folder) (slash : Bool) :
    (folder : List String) → (steps : List String) → Except Fault Place
  | _, [] => .ok .folder
  | folder, name :: steps =>
    if name = "." then f.follow slash folder steps
    else if name = ".." then f.follow slash folder.tail steps
    else if name :: folder ∈ f.folders then f.follow slash (name :: folder) steps
    else if steps = [] then .ok (.entry name folder slash)
    else (f.lookup name folder).bind fun _ ↦ .error isFile

def resolve (f : Folder) (path : String) : Except Fault Place :=
  if path.contains '\x00' then .error hasNul
  else if path.isEmpty then .error missing
  else if 4096 ≤ path.utf8ByteSize then .error tooLong
  else
    let parts := segments path
    f.follow (parts.getLast? = some "") (if parts.head? = some "" then [] else f.here)
      (parts.filter (· ≠ ""))

/-! ## Files -/

/-- Writes a file, over an earlier one of the same path. -/
def write (f : Folder) (path : String) (content : ByteArray) : Except Fault Folder := do
  match ← f.resolve path with
  | .folder | .entry _ _ true => throw isFolder
  | .entry name folder false =>
    if 255 < name.utf8ByteSize then throw tooLong
    else return { f with
      files := (name :: folder, content) :: f.files.filter (·.1 ≠ name :: folder) }

def read (f : Folder) (path : String) : Except Fault ByteArray := do
  match ← f.resolve path with
  | .folder => throw isFolder
  | .entry name folder slash =>
    let content ← f.lookup name folder
    if slash then throw isFile else return content

end Folder

namespace Settings

/-- The extension of the last name of a path: what follows its last dot, unless the name starts
with that dot or has none. -/
def extension (path : String) : String :=
  let name := ((Folder.segments path).filter (· ∉ ["", "."])).getLastD ""
  let reversed := name.toList.reverse
  let ext := reversed.takeWhile (· ≠ '.')
  if name = ".." || reversed.length ≤ ext.length + 1 then "" else String.ofList ext.reverse

def ofText (ext content : String) : Except Fault Settings :=
  if ext = "toml" then (ofToml? content).elim (.error (.settings .toml)) .ok
  else if ext = "json" then (ofJson? content).elim (.error (.settings .json)) .ok
  else .error (.settings (.unknownExtension ext))

def ofBytes (path : String) (content : ByteArray) : Except Fault Settings :=
  match Text.Utf8.decode content with
  | .error _ => .error (.io ⟨.invalidData, "stream did not contain valid UTF-8"⟩)
  | .ok content => ofText (extension path) content

def load (f : Folder) (path : String) : Except Fault Settings := do
  ofBytes path (← f.read path)

def generate (f : Folder) (path : String) : Except Fault Folder :=
  f.write path (template path).toUTF8

end Settings

end ReplicaChain
