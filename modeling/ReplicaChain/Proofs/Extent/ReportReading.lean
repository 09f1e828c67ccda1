import ReplicaChain.Extent.Operation
import ReplicaChain.Proofs.Text.JsonReading
import ReplicaChain.Settings.Document

/-!
# Reading reports

Replicas compare their extents by the reports on them, so a report has to say no more and no less than
what was reported.  Whoever reads it as a JSON document, and takes the two numbers of each object for a
watermark, gets back the list that was reported.  The used bytes are read from a heartbeat likewise.
-/

namespace ReplicaChain.Extent

open Json (objectOf whole writtenArray writtenObject IsPlain)

/-! ## Readers -/

def readDocument (b : ByteArray) : Option Document :=
  match Text.Utf8.decode b with
  | .error _ => none
  | .ok text => (Json.parse? text).map .ofJson

def Watermark.ofDocument? (d : Document) : Option Watermark := do
  match ← d.complete false ["extent_id", "size"] with
  | [extent, size] => some ⟨← extent.word?, ← size.word?⟩
  | _ => none

def readWatermarks (b : ByteArray) : Option (List Watermark) := do
  match ← readDocument b with
  | .list items => items.mapM Watermark.ofDocument?
  | _ => none

def readUsed (b : ByteArray) : Option UInt64 := do
  match ← (← readDocument b).complete false ["partitions", "used_bytes", "capacity_bytes"] with
  | [_, used, _] => used.word?
  | _ => none

/-! ## Documents that were written -/

theorem readDocument_toUTF8 {text : String} {v : Json} (h : Json.parse? text = some v) :
    readDocument text.toUTF8 = some (.ofJson v) := by
  have hvalid : text.toUTF8.IsValidUTF8 := text.isValidUTF8
  have htext : String.fromUTF8 text.toUTF8 hvalid = text := rfl
  rw [readDocument, Text.Utf8.decode, dif_pos hvalid, htext]
  simp [h]

theorem ofJsonItems_eq_map (items : List Json) :
    Document.ofJsonItems items = items.map .ofJson := by
  induction items with
  | nil => rfl
  | cons v items ih => rw [Document.ofJsonItems, ih, List.map_cons]

theorem word?_ofJson_whole (n : UInt64) : (Document.ofJson (whole n.toNat)).word? = some n := by
  have hn := n.toNat_lt
  have hword : Document.ofJson (whole n.toNat) = .whole n.toNat := by
    rw [whole, if_pos hn]
    rfl
  have hrange : (0 : Int) ≤ n.toNat ∧ (n.toNat : Int) < 0x10000000000000000 := by omega
  rw [hword, Document.word?, if_pos hrange]
  simp

def quoted (name : String) : String :=
  "\"" ++ name ++ "\":"

theorem toList_quoted (name : String) : (quoted name).toList = '"' :: (name.toList ++ ['"', ':']) := by
  simp [quoted]

/-! ## Watermarks -/

def Watermark.entries (m : Watermark) : List (String × Nat) :=
  [("extent_id", m.extent.toNat), ("size", m.size.toNat)]

theorem Watermark.toList_report (m : Watermark) : m.report.toList = writtenObject m.entries := by
  have hextent : "\x7b\"extent_id\":" = "\x7b" ++ quoted "extent_id" := by decide
  have hsize : ",\"size\":" = "," ++ quoted "size" := by decide
  -- Rewriting by the equation of the definition would compare its long literals letter by letter.
  unfold report
  rw [hextent, hsize]
  simp [toList_quoted, Text.decimal, writtenObject, entries, Json.writtenEntry]

theorem reportWatermarks_eq (marks : List Watermark) :
    reportWatermarks marks =
      String.ofList (writtenArray ((marks.map Watermark.entries).map writtenObject)) := by
  apply String.toList_inj.mp
  simp [reportWatermarks, writtenArray, String.toList_intercalate, Function.comp_def,
    Watermark.toList_report]

theorem Watermark.ofDocument?_entries (m : Watermark) :
    ofDocument? (.ofJson (objectOf m.entries)) = some m := by
  have hextent := word?_ofJson_whole m.extent
  have hsize := word?_ofJson_whole m.size
  have hmembers : (Document.ofJson (objectOf m.entries)).complete false ["extent_id", "size"] =
      some [.ofJson (whole m.extent.toNat), .ofJson (whole m.size.toNat)] := rfl
  simp [ofDocument?, hmembers, hextent, hsize]

/-- A report on extents is read as the watermarks that it was made from. -/
theorem readWatermarks_reportWatermarks (marks : List Watermark) :
    readWatermarks (reportWatermarks marks).toUTF8 = some marks := by
  have hplain : ∀ entries ∈ marks.map Watermark.entries, ∀ x ∈ entries, ∀ c ∈ x.1.toList,
      IsPlain c := by
    have hnames : ∀ name ∈ ["extent_id", "size"], ∀ c ∈ name.toList, IsPlain c := by decide
    intro entries hentries x hx
    obtain ⟨m, -, rfl⟩ := List.mem_map.mp hentries
    exact hnames x.1 (List.mem_map_of_mem (f := Prod.fst) hx)
  have hread : readDocument (reportWatermarks marks).toUTF8 =
      some (.list (((marks.map Watermark.entries).map objectOf).map .ofJson)) := by
    rw [reportWatermarks_eq, readDocument_toUTF8 (Json.parse?_writtenArray _ hplain),
      Document.ofJson, ofJsonItems_eq_map]
  have hmarks : (((marks.map Watermark.entries).map objectOf).map Document.ofJson).mapM
      Watermark.ofDocument? = some marks := by
    clear hplain hread
    induction marks with
    | nil => rfl
    | cons m marks ih =>
      simp only [List.map_cons, List.mapM_cons, Watermark.ofDocument?_entries, ih]
      rfl
  rw [readWatermarks, hread]
  exact hmarks

/-! ## Heartbeats -/

def heartbeatEntries (partitions : Nat) (used capacity : UInt64) : List (String × Nat) :=
  [("partitions", partitions), ("used_bytes", used.toNat), ("capacity_bytes", capacity.toNat)]

theorem reportHeartbeat_eq (partitions : Nat) (used capacity : UInt64) :
    reportHeartbeat partitions used capacity =
      String.ofList (writtenObject (heartbeatEntries partitions used capacity)) := by
  apply String.toList_inj.mp
  have hpartitions : "\x7b\"partitions\":" = "\x7b" ++ quoted "partitions" := by decide
  have hused : ",\"used_bytes\":" = "," ++ quoted "used_bytes" := by decide
  have hcapacity : ",\"capacity_bytes\":" = "," ++ quoted "capacity_bytes" := by decide
  unfold reportHeartbeat
  rw [hpartitions, hused, hcapacity]
  simp [toList_quoted, Text.decimal, writtenObject, heartbeatEntries, Json.writtenEntry]

/-- A heartbeat tells the number of used bytes. -/
theorem readUsed_reportHeartbeat (partitions : Nat) (used capacity : UInt64) :
    readUsed (reportHeartbeat partitions used capacity).toUTF8 = some used := by
  have hplain : ∀ x ∈ heartbeatEntries partitions used capacity, ∀ c ∈ x.1.toList, IsPlain c := by
    have hnames : ∀ name ∈ ["partitions", "used_bytes", "capacity_bytes"], ∀ c ∈ name.toList,
        IsPlain c := by decide
    intro x hx
    exact hnames x.1 (List.mem_map_of_mem (f := Prod.fst) hx)
  have hread : readDocument (reportHeartbeat partitions used capacity).toUTF8 =
      some (.ofJson (objectOf (heartbeatEntries partitions used capacity))) := by
    rw [reportHeartbeat_eq, readDocument_toUTF8 (Json.parse?_writtenObject hplain)]
  have hmembers : (Document.ofJson (objectOf (heartbeatEntries partitions used capacity))).complete
      false ["partitions", "used_bytes", "capacity_bytes"] =
        some [.ofJson (whole partitions), .ofJson (whole used.toNat),
          .ofJson (whole capacity.toNat)] := rfl
  have hused := word?_ofJson_whole used
  rw [readUsed, hread, Option.bind_eq_bind, Option.bind_some, hmembers]
  exact hused

end ReplicaChain.Extent
