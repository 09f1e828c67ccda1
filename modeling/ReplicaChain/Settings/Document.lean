import ReplicaChain.Json
import ReplicaChain.Settings.Basic
import ReplicaChain.Toml.Document

/-!
# Settings in documents

Settings are read from a document of either notation, in which they stand by name in tables or by
position in lists.  A table may hold further entries, which do not count, but each setting at most
once.  The address and the beginning of the timer keys have to be there; a deadline or a section
that is left out has its default, and a section that is there has to be complete.
-/

namespace ReplicaChain

/-- A value of a document, as far as settings can tell values apart. -/
inductive Document where
  /-- A text, or nothing for one that has no characters. -/
  | text (s : Option String)
  | whole (n : Int)
  | truth (b : Bool)
  /-- A value that is none of a setting. -/
  | other
  | list (items : List Document)
  | table (entries : List (Option String × Document))

namespace Document

/-! ## Notations -/

mutual

def ofJson : Json → Document
  | .null | .number => other
  | .boolean b => truth b
  | .natural n => whole n
  | .string s => text s
  | .array items => list (ofJsonItems items)
  | .object entries => table (ofJsonEntries entries)

def ofJsonItems : List Json → List Document
  | [] => []
  | v :: vs => ofJson v :: ofJsonItems vs

def ofJsonEntries : List (Option String × Json) → List (Option String × Document)
  | [] => []
  | (k, v) :: es => (k, ofJson v) :: ofJsonEntries es

end

mutual

def ofToml : Toml.Value → Document
  | .string s => text (some s)
  | .integer n => whole n
  | .boolean b => truth b
  | .fraction | .date => other
  | .array items => list (ofTomlItems items)
  | .table _ entries => table (ofTomlEntries entries)
  | .tables members => list (ofTomlTables members).reverse

def ofTomlItems : List Toml.Value → List Document
  | [] => []
  | v :: vs => ofToml v :: ofTomlItems vs

def ofTomlEntries : List (String × Toml.Value) → List (Option String × Document)
  | [] => []
  | (k, v) :: es => (some k, ofToml v) :: ofTomlEntries es

def ofTomlTables : List (List (String × Toml.Value)) → List Document
  | [] => []
  | es :: rest => table (ofTomlEntries es) :: ofTomlTables rest

end

/-! ## Values of settings -/

def text? : Document → Option String
  | text s => s
  | _ => none

def word? : Document → Option UInt64
  | whole n => if 0 ≤ n ∧ n < 0x10000000000000000 then some (.ofNat n.toNat) else none
  | _ => none

def truth? : Document → Option Bool
  | truth b => some b
  | _ => none

def address? (d : Document) : Option SocketAddress := do
  SocketAddress.parse? (← d.text?)

/-! ## Sections -/

/-- The values of the named members of a document.  `surplus` tells whether a list may be longer than
it has members.  A name without characters, or a member that stands there twice, spoils the whole. -/
def members (surplus : Bool) (names : List String) : Document → Option (List (Option Document))
  | list items =>
    if surplus || items.length ≤ names.length then
      some (names.mapIdx fun i _ ↦ items[i]?)
    else none
  | table entries =>
    if entries.any (·.1.isNone) then none
    else names.mapM fun name ↦
      match entries.filter (·.1 = some name) with
      | [] => some none
      | [entry] => some (some entry.2)
      | _ => none
  | _ => none

def complete (surplus : Bool) (names : List String) (d : Document) : Option (List Document) := do
  (← d.members surplus names).mapM id

def withDefault {α : Type} (default : α) (read : Document → Option α) : Option Document → Option α
  | none => some default
  | some d => read d

def linkSettings (surplus : Bool) (d : Document) : Option LinkSettings := do
  match ← d.complete surplus ["idle_per_addr", "max_connections", "connect_timeout_ms"] with
  | [idle, most, timeout] => some ⟨← idle.word?, ← most.word?, ← timeout.word?⟩
  | _ => none

def bufferSettings (surplus : Bool) (d : Document) : Option BufferSettings := do
  match ← d.complete surplus ["header_pool_size", "block_pool_size"] with
  | [headers, blocks] => some ⟨← headers.word?, ← blocks.word?⟩
  | _ => none

def latencySettings (surplus : Bool) (d : Document) : Option LatencySettings := do
  match ← d.complete surplus ["enabled", "channel_capacity"] with
  | [enabled, backlog] => some ⟨← enabled.truth?, ← backlog.word?⟩
  | _ => none

def storeSettings (surplus : Bool) (d : Document) : Option StoreSettings := do
  match ← d.complete surplus ["capacity_bytes"] with
  | [capacity] => some ⟨← capacity.word?⟩
  | _ => none

def settings (surplus : Bool) (d : Document) : Option Settings := do
  let names := ["cluster_id", "listen_addr", "client_read_timeout_secs",
    "follower_read_timeout_secs", "pool", "buffers", "metrics", "store"]
  match ← d.members surplus names with
  | [cluster, listen, client, follower, links, buffers, latency, store] =>
    some {
      cluster := ← (← cluster).text?
      listen := ← (← listen).address?
      clientTimeout := ← withDefault ({} : Settings).clientTimeout word? client
      followerTimeout := ← withDefault ({} : Settings).followerTimeout word? follower
      links := ← withDefault {} (linkSettings surplus) links
      buffers := ← withDefault {} (bufferSettings surplus) buffers
      latency := ← withDefault {} (latencySettings surplus) latency
      store := ← withDefault {} (storeSettings surplus) store }
  | _ => none

end Document

namespace Settings

/-- Reads settings from a JSON text, in which lists are never too long. -/
def ofJson? (s : String) : Option Settings := do
  (Document.ofJson (← Json.parse? s)).settings false

def ofToml? (s : String) : Option Settings := do
  (Document.table (Document.ofTomlEntries (← Toml.parse? s))).settings true

end Settings

end ReplicaChain
