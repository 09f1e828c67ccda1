import ReplicaChain.Proofs.Text.TomlReading
import ReplicaChain.Settings.Folder

/-!
# Settings in templates

A template is read as one statement for each of its lines, and these statements define every setting once,
under the name by which it is read.  So a template is read as the settings that it shows, whatever they are,
as long as they can be written without escapes and in signed words.
-/

namespace ReplicaChain

open Toml (IsPlain Progress ReadsAs Statement closedLines isPrintable readsAs_decimal readsAs_header
  readsAs_remark readsAs_remark_append readsAs_text readsAs_truth)

/-! ## Tables in which every key stands once -/

namespace Document

variable {entries : Toml.Entries} {names : List String} {surplus : Bool}

theorem mapM_eq_some_map {α β : Type} {l : List α} {read : α → Option β} {result : α → β}
    (h : ∀ x ∈ l, read x = some (result x)) : l.mapM read = some (l.map result) := by
  induction l with
  | nil => rfl
  | cons x l ih =>
    obtain ⟨hx, hl⟩ := List.forall_mem_cons.mp h
    rw [List.mapM_cons, hx, ih hl]
    rfl

theorem ofTomlEntries_eq_map (entries : Toml.Entries) :
    ofTomlEntries entries = entries.map fun x ↦ (some x.1, ofToml x.2) := by
  induction entries with
  | nil => rfl
  | cons x entries ih => rw [ofTomlEntries, ih, List.map_cons]

theorem filter_ofTomlEntries (h : (entries.map Prod.fst).Nodup) {x : String × Toml.Value}
    (hx : x ∈ entries) :
    (ofTomlEntries entries).filter (·.1 = some x.1) = [(some x.1, ofToml x.2)] := by
  induction entries with
  | nil => cases hx
  | cons y entries ih =>
    obtain ⟨hy, hrest⟩ := List.nodup_cons.mp h
    rw [ofTomlEntries_eq_map] at ih ⊢
    rcases List.mem_cons.mp hx with rfl | hx
    · have hnone : (entries.map fun x ↦ (some x.1, ofToml x.2)).filter (·.1 = some x.1) = [] := by
        simp only [List.filter_eq_nil_iff, List.mem_map]
        rintro _ ⟨z, hz, rfl⟩
        simp only [Option.some.injEq, decide_eq_true_eq]
        intro heq
        exact hy (heq ▸ List.mem_map_of_mem hz)
      simp [hnone]
    · have hne : y.1 ≠ x.1 := fun heq ↦ hy (heq ▸ List.mem_map_of_mem hx)
      simpa [hne] using ih hrest hx

/-- Each key finds its value. -/
theorem members_ofTomlEntries (hnames : entries.map Prod.fst = names) (h : names.Nodup) :
    (table (ofTomlEntries entries)).members surplus names =
      some (entries.map fun x ↦ some (ofToml x.2)) := by
  subst hnames
  have hnamed : (ofTomlEntries entries).any (·.1.isNone) = false := by
    simp [ofTomlEntries_eq_map]
  rw [members, hnamed, List.mapM_map]
  refine mapM_eq_some_map fun x hx ↦ ?_
  simp only [Function.comp_apply, filter_ofTomlEntries h hx]

theorem complete_ofTomlEntries (hnames : entries.map Prod.fst = names) (h : names.Nodup) :
    (table (ofTomlEntries entries)).complete surplus names = some (entries.map fun x ↦ ofToml x.2) := by
  rw [complete, members_ofTomlEntries hnames h, Option.bind_eq_bind, Option.bind_some, List.mapM_map]
  exact mapM_eq_some_map fun _ _ ↦ rfl

/-- A word is read from its number. -/
theorem word?_ofToml (n : UInt64) : (ofToml (.integer n.toNat)).word? = some n := by
  have hn := n.toNat_lt
  have hrange : (0 : Int) ≤ n.toNat ∧ (n.toNat : Int) < 0x10000000000000000 := by omega
  rw [ofToml, word?, if_pos hrange]
  simp

/-! What each section takes for its settings. -/

theorem linkSettings_eq_some {d idle most timeout : Document} {s : LinkSettings}
    (h : d.complete surplus ["idle_per_addr", "max_connections", "connect_timeout_ms"] =
      some [idle, most, timeout])
    (hidle : idle.word? = some s.idlePerAddress) (hmost : most.word? = some s.maxLinks)
    (htimeout : timeout.word? = some s.connectTimeoutMs) : linkSettings surplus d = some s := by
  rw [linkSettings, h]
  simp [hidle, hmost, htimeout]

theorem bufferSettings_eq_some {d headers blocks : Document} {s : BufferSettings}
    (h : d.complete surplus ["header_pool_size", "block_pool_size"] = some [headers, blocks])
    (hheaders : headers.word? = some s.headers) (hblocks : blocks.word? = some s.blocks) :
    bufferSettings surplus d = some s := by
  rw [bufferSettings, h]
  simp [hheaders, hblocks]

theorem latencySettings_eq_some {d enabled backlog : Document} {s : LatencySettings}
    (h : d.complete surplus ["enabled", "channel_capacity"] = some [enabled, backlog])
    (henabled : enabled.truth? = some s.enabled) (hbacklog : backlog.word? = some s.backlog) :
    latencySettings surplus d = some s := by
  rw [latencySettings, h]
  simp [henabled, hbacklog]

theorem storeSettings_eq_some {d capacity : Document} {s : StoreSettings}
    (h : d.complete surplus ["capacity_bytes"] = some [capacity])
    (hcapacity : capacity.word? = some s.capacity) : storeSettings surplus d = some s := by
  rw [storeSettings, h]
  simp [hcapacity]

theorem settings_eq_some {d cluster listen client follower links buffers latency store : Document}
    {s : Settings}
    (h : d.members surplus ["cluster_id", "listen_addr", "client_read_timeout_secs",
      "follower_read_timeout_secs", "pool", "buffers", "metrics", "store"] =
        some [some cluster, some listen, some client, some follower, some links, some buffers,
          some latency, some store])
    (hcluster : cluster.text? = some s.cluster) (hlisten : listen.address? = some s.listen)
    (hclient : client.word? = some s.clientTimeout) (hfollower : follower.word? = some s.followerTimeout)
    (hlinks : linkSettings surplus links = some s.links)
    (hbuffers : bufferSettings surplus buffers = some s.buffers)
    (hlatency : latencySettings surplus latency = some s.latency)
    (hstore : storeSettings surplus store = some s.store) : settings surplus d = some s := by
  rw [settings, h]
  simp [withDefault, hcluster, hlisten, hclient, hfollower, hlinks, hbuffers, hlatency, hstore]

end Document

/-! ## Settings that can be written -/

namespace Settings

variable {path : String} {s : Settings}

/-- Settings that a template can hold: their texts need no escapes, the address is read back from its text,
and the numbers fit into signed words. -/
structure IsWritable (s : Settings) : Prop where
  cluster : ∀ c ∈ s.cluster.toList, IsPlain c
  listen : (∀ c ∈ s.listen.text.toList, IsPlain c) ∧ SocketAddress.parse? s.listen.text = some s.listen
  words : ∀ n ∈ [s.clientTimeout, s.followerTimeout, s.links.idlePerAddress, s.links.maxLinks,
    s.links.connectTimeoutMs, s.buffers.headers, s.buffers.blocks, s.latency.backlog, s.store.capacity],
    n.toNat < 0x8000000000000000

theorem isWritable_default : IsWritable {} where
  cluster := by decide
  listen := by decide
  words := by simp

/-! ## The document that a template is -/

/-- The settings that stand by themselves. -/
def plainEntries (s : Settings) : Toml.Entries :=
  [("cluster_id", .string s.cluster),
    ("listen_addr", .string s.listen.text),
    ("client_read_timeout_secs", .integer s.clientTimeout.toNat),
    ("follower_read_timeout_secs", .integer s.followerTimeout.toNat)]

def linkEntries (s : LinkSettings) : Toml.Entries :=
  [("idle_per_addr", .integer s.idlePerAddress.toNat),
    ("max_connections", .integer s.maxLinks.toNat),
    ("connect_timeout_ms", .integer s.connectTimeoutMs.toNat)]

theorem map_fst_linkEntries (s : LinkSettings) :
    (linkEntries s).map Prod.fst = ["idle_per_addr", "max_connections", "connect_timeout_ms"] := rfl

def bufferEntries (s : BufferSettings) : Toml.Entries :=
  [("header_pool_size", .integer s.headers.toNat),
    ("block_pool_size", .integer s.blocks.toNat)]

theorem map_fst_bufferEntries (s : BufferSettings) :
    (bufferEntries s).map Prod.fst = ["header_pool_size", "block_pool_size"] := rfl

def latencyEntries (s : LatencySettings) : Toml.Entries :=
  [("enabled", .boolean s.enabled),
    ("channel_capacity", .integer s.backlog.toNat)]

theorem map_fst_latencyEntries (s : LatencySettings) :
    (latencyEntries s).map Prod.fst = ["enabled", "channel_capacity"] := rfl

def storeEntries (s : StoreSettings) : Toml.Entries :=
  [("capacity_bytes", .integer s.capacity.toNat)]

theorem map_fst_storeEntries (s : StoreSettings) :
    (storeEntries s).map Prod.fst = ["capacity_bytes"] := rfl

def sections (s : Settings) : List (String × Toml.Entries) :=
  [("pool", linkEntries s.links), ("buffers", bufferEntries s.buffers),
    ("metrics", latencyEntries s.latency), ("store", storeEntries s.store)]

def entries (s : Settings) : Toml.Entries :=
  s.plainEntries ++ s.sections.map Toml.sectionTable

theorem map_fst_entries (s : Settings) :
    s.entries.map Prod.fst = ["cluster_id", "listen_addr", "client_read_timeout_secs",
      "follower_read_timeout_secs", "pool", "buffers", "metrics", "store"] := rfl

def templateStatements (s : Settings) : List Statement :=
  [.empty, .empty, .empty, .empty, .empty, .empty,
    .assignment [] "cluster_id" (.string s.cluster), .empty, .empty,
    .assignment [] "listen_addr" (.string s.listen.text), .empty, .empty,
    .assignment [] "client_read_timeout_secs" (.integer s.clientTimeout.toNat),
    .assignment [] "follower_read_timeout_secs" (.integer s.followerTimeout.toNat), .empty,
    .header [] "pool", .empty,
    .assignment [] "idle_per_addr" (.integer s.links.idlePerAddress.toNat), .empty,
    .assignment [] "max_connections" (.integer s.links.maxLinks.toNat),
    .assignment [] "connect_timeout_ms" (.integer s.links.connectTimeoutMs.toNat), .empty,
    .header [] "buffers", .empty,
    .assignment [] "header_pool_size" (.integer s.buffers.headers.toNat),
    .assignment [] "block_pool_size" (.integer s.buffers.blocks.toNat), .empty,
    .header [] "metrics",
    .assignment [] "enabled" (.boolean s.latency.enabled), .empty,
    .assignment [] "channel_capacity" (.integer s.latency.backlog.toNat), .empty,
    .header [] "store",
    .assignment [] "capacity_bytes" (.integer s.store.capacity.toNat)]

/-- The lines of a template are read one by one. -/
theorem readsAs_templateLines (hs : s.IsWritable) (hpath : ∀ c ∈ path.toList, isPrintable c = true) :
    List.Forall₂ ReadsAs (templateLines path s) (templateStatements s) := by
  have hwords := hs.words
  simp only [List.forall_mem_cons, List.not_mem_nil, false_implies, implies_true, and_true] at hwords
  obtain ⟨hclient, hfollower, hidle, hmost, htimeout, hheaders, hblocks, hbacklog, hcapacity⟩ := hwords
  simp only [templateLines, templateStatements, List.forall₂_cons]
  exact ⟨readsAs_remark (by decide), readsAs_remark_append (by decide) hpath, readsAs_remark (by decide),
    readsAs_remark (by decide), readsAs_remark (by decide), readsAs_remark (by decide),
    readsAs_text (by decide) (by decide) hs.cluster, readsAs_remark (by decide),
    readsAs_remark (by decide), readsAs_text (by decide) (by decide) hs.listen.1,
    readsAs_remark (by decide), readsAs_remark (by decide),
    readsAs_decimal (by decide) (by decide) hclient, readsAs_decimal (by decide) (by decide) hfollower,
    readsAs_remark (by decide),
    readsAs_header (by decide) (by decide), readsAs_remark (by decide),
    readsAs_decimal (by decide) (by decide) hidle, readsAs_remark (by decide),
    readsAs_decimal (by decide) (by decide) hmost, readsAs_decimal (by decide) (by decide) htimeout,
    readsAs_remark (by decide),
    readsAs_header (by decide) (by decide), readsAs_remark (by decide),
    readsAs_decimal (by decide) (by decide) hheaders, readsAs_decimal (by decide) (by decide) hblocks,
    readsAs_remark (by decide),
    readsAs_header (by decide) (by decide), readsAs_truth (by decide) (by decide) _, readsAs_remark (by decide),
    readsAs_decimal (by decide) (by decide) hbacklog, readsAs_remark (by decide),
    readsAs_header (by decide) (by decide), readsAs_decimal (by decide) (by decide) hcapacity, .nil⟩

theorem nodup_sections (s : Settings) : ∀ x ∈ s.sections, (x.2.map Prod.fst).Nodup := by
  intro x hx
  simp only [sections, List.mem_cons, List.not_mem_nil, or_false] at hx
  rcases hx with rfl | rfl | rfl | rfl
  · rw [map_fst_linkEntries]
    decide
  · rw [map_fst_bufferEntries]
    decide
  · rw [map_fst_latencyEntries]
    decide
  · rw [map_fst_storeEntries]
    decide

/-- What the lines of a template define. -/
theorem defined_templateStatements (s : Settings) :
    ((templateStatements s).foldlM Progress.apply Progress.start).map (·.defined) = some s.entries := by
  have hkeys : (s.entries.map Prod.fst).Nodup := by
    rw [map_fst_entries]
    decide
  exact Toml.foldlM_document rfl hkeys (nodup_sections s)

/-! ## Reading settings -/

/-- Settings are what their entries say. -/
theorem settings_entries (hlisten : SocketAddress.parse? s.listen.text = some s.listen) (surplus : Bool) :
    (Document.table (Document.ofTomlEntries s.entries)).settings surplus = some s := by
  have hlinks : Document.linkSettings surplus (.table (Document.ofTomlEntries (linkEntries s.links))) =
      some s.links :=
    Document.linkSettings_eq_some (Document.complete_ofTomlEntries (map_fst_linkEntries _) (by decide))
      (Document.word?_ofToml _) (Document.word?_ofToml _) (Document.word?_ofToml _)
  have hbuffers : Document.bufferSettings surplus
      (.table (Document.ofTomlEntries (bufferEntries s.buffers))) = some s.buffers :=
    Document.bufferSettings_eq_some (Document.complete_ofTomlEntries (map_fst_bufferEntries _) (by decide))
      (Document.word?_ofToml _) (Document.word?_ofToml _)
  have hlatency : Document.latencySettings surplus
      (.table (Document.ofTomlEntries (latencyEntries s.latency))) = some s.latency :=
    Document.latencySettings_eq_some (Document.complete_ofTomlEntries (map_fst_latencyEntries _) (by decide))
      rfl (Document.word?_ofToml _)
  have hstore : Document.storeSettings surplus
      (.table (Document.ofTomlEntries (storeEntries s.store))) = some s.store :=
    Document.storeSettings_eq_some (Document.complete_ofTomlEntries (map_fst_storeEntries _) (by decide))
      (Document.word?_ofToml _)
  exact Document.settings_eq_some (Document.members_ofTomlEntries (map_fst_entries s) (by decide))
    rfl hlisten (Document.word?_ofToml _) (Document.word?_ofToml _) hlinks hbuffers hlatency hstore

/-- The lines of a template up to the one that names its file. -/
theorem templateLines_eq (path : String) (s : Settings) :
    templateLines path s = "# Data-node configuration" ::
      ("# Generated by: datanode --gen-config " ++ path) :: (templateLines path s).drop 2 := rfl

theorem skipMark_templateLines (path : String) (s : Settings) :
    Toml.skipMark (closedLines (templateLines path s)) = closedLines (templateLines path s) := by
  rw [templateLines_eq, Toml.closedLines_cons]
  rfl

/-- A template is read as the settings that it shows. -/
theorem ofToml?_templateLines {text : String} (htext : text.toList = closedLines (templateLines path s))
    (hs : s.IsWritable) (hpath : ∀ c ∈ path.toList, isPrintable c = true) : ofToml? text = some s := by
  have hmark : Toml.skipMark text.toList = closedLines (templateLines path s) := by
    rw [htext, skipMark_templateLines]
  rw [ofToml?, Toml.parse?_closedLines (readsAs_templateLines hs hpath) hmark,
    defined_templateStatements, Option.bind_eq_bind, Option.bind_some,
    settings_entries hs.listen.2]

end Settings

end ReplicaChain
