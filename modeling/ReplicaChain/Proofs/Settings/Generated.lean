import Mathlib.Data.List.TakeWhile
import ReplicaChain.Proofs.Settings.Templates

/-!
# Generated settings files

The file that is generated at a path is found there again, and it loads as the defaults as long as the
remark that names the file is a remark to its end.  The path is put into it as it is: a character that may
not stand in a remark spoils the file, and what follows a line feed is read as a line of its own.
-/

namespace ReplicaChain

open Toml (ReadsAs closedLines isPrintable readsAs_remark readsAs_remark_append)

namespace Settings

/-! ## Names that spoil a template -/

section Names

variable {text path : String} {s : Settings} {before after : List Char} {c : Char}

/-- A template is spoilt by a name with a character that neither may stand in a remark nor ends its line. -/
theorem ofToml?_eq_none_of_unprintable (htext : text.toList = closedLines (templateLines path s))
    (hpath : path.toList = before ++ c :: after) (hbefore : ∀ d ∈ before, isPrintable d = true)
    (hc : isPrintable c = false)
    (hline : ∀ tail, Toml.newline (c :: (after ++ '\n' :: tail)) = none) : ofToml? text = none := by
  have hfirst : List.Forall₂ ReadsAs ["# Data-node configuration"] [.empty] :=
    .cons (readsAs_remark (by decide)) .nil
  let label := " Generated by: datanode --gen-config ".toList
  let tail := closedLines ((templateLines path s).drop 2)
  have hwritten : Toml.skipMark text.toList = closedLines ["# Data-node configuration"] ++
      '#' :: (label ++ before ++ c :: (after ++ '\n' :: tail)) := by
    have hlabel : "# Generated by: datanode --gen-config ".toList = '#' :: label := rfl
    rw [htext, skipMark_templateLines, templateLines_eq, Toml.closedLines_cons, Toml.closedLines_cons,
      Toml.closedLines_cons, String.toList_append, hlabel, hpath]
    simp [tail]
  have hstop : Toml.statement ('#' :: (label ++ before ++ c :: (after ++ '\n' :: tail))) = none := by
    have hshown : ∀ d ∈ label ++ before, isPrintable d = true := by
      intro d hd
      rcases List.mem_append.mp hd with hd | hd
      · exact List.all_eq_true.mp (by decide : label.all isPrintable = true) d hd
      · exact hbefore d hd
    rw [Toml.statement_remark, Toml.lineEnd_remark hshown hc, hline]
    rfl
  rw [ofToml?, Toml.parse?_eq_none_of_closedLines hfirst hstop (List.cons_ne_nil _ _) hwritten]
  rfl

/-- What follows a line feed in a name has to be a line of its own. -/
theorem ofToml?_eq_none_of_lineFeed (htext : text.toList = closedLines (templateLines path s))
    (hpath : path.toList = before ++ '\n' :: c :: after) (hbefore : ∀ d ∈ before, isPrintable d = true)
    (hc : Toml.isBlank c = false)
    (hline : ∀ tail, Toml.statement (c :: (after ++ '\n' :: tail)) = none) : ofToml? text = none := by
  let lines := ["# Data-node configuration", "# Generated by: datanode --gen-config " ++ String.ofList before]
  have hremarks : List.Forall₂ ReadsAs lines [.empty, .empty] :=
    .cons (readsAs_remark (by decide))
      (.cons (readsAs_remark_append (by decide) (by rwa [String.toList_ofList])) .nil)
  let tail := closedLines ((templateLines path s).drop 2)
  have hwritten : Toml.skipMark text.toList = closedLines lines ++ c :: (after ++ '\n' :: tail) := by
    rw [htext, skipMark_templateLines, templateLines_eq]
    simp [lines, tail, hpath]
  have hrest : Toml.skipBlanks (c :: (after ++ '\n' :: tail)) ≠ [] := by
    rw [Toml.skipBlanks_cons hc]
    exact List.cons_ne_nil _ _
  rw [ofToml?, Toml.parse?_eq_none_of_closedLines hremarks (hline tail) hrest hwritten]
  rfl

end Names

end Settings

/-! ## Files -/

namespace Folder

variable {f g : Folder} {path : String} {content : ByteArray} {place : Place}

/-- Where a path leads does not depend on what files there are. -/
theorem follow_eq_ok {slash : Bool} {folder steps : List String} (hfolders : g.folders = f.folders)
    (h : f.follow slash folder steps = .ok place) : g.follow slash folder steps = .ok place := by
  fun_induction follow f slash folder steps with
  | case1 => exact h
  | case2 folder steps ih =>
    rw [follow, if_pos rfl]
    exact ih h
  | case3 folder steps hstay ih =>
    rw [follow, if_neg hstay, if_pos rfl]
    exact ih h
  | case4 folder name steps hstay hup hfolder ih =>
    rw [follow, if_neg hstay, if_neg hup, if_pos (hfolders ▸ hfolder)]
    exact ih h
  | case5 folder name hstay hup hfolder =>
    rw [follow, if_neg hstay, if_neg hup, if_neg (hfolders ▸ hfolder), if_pos rfl]
    exact h
  | case6 folder name steps hstay hup hfolder hmore =>
    -- The path leads through what is no folder, and so nowhere.
    cases hlookup : f.lookup name folder <;> rw [hlookup] at h <;> cases h

/-- A folder may be left and entered again. -/
example : follow ⟨[], [["conf"]], []⟩ false [] ["conf", "..", "conf", "a.toml"] =
    .ok (.entry "a.toml" ["conf"] false) := rfl

theorem resolve_eq_ok (hfolders : g.folders = f.folders) (hhere : g.here = f.here)
    (h : f.resolve path = .ok place) : g.resolve path = .ok place := by
  unfold resolve at h ⊢
  rw [hhere]
  split at h
  · cases h
  rw [if_neg ‹_›]
  split at h
  · cases h
  rw [if_neg ‹_›]
  split at h
  · cases h
  rw [if_neg ‹_›]
  exact follow_eq_ok hfolders h

/-- A file is written under the name that its path leads to. -/
theorem write_eq_ok_iff :
    f.write path content = .ok g ↔
      ∃ name folder, f.resolve path = .ok (.entry name folder false) ∧ name.utf8ByteSize ≤ 255 ∧
        g = { f with
          files := (name :: folder, content) :: f.files.filter (·.1 ≠ name :: folder) } := by
  unfold write
  cases hplace : f.resolve path with
  | error fault =>
    refine iff_of_false (fun h ↦ by cases h) ?_
    rintro ⟨name, folder, h, -⟩
    cases h
  | ok place =>
    simp only [pure, Except.pure, bind, Except.bind, throw, throwThe, MonadExceptOf.throw]
    cases place with
    | folder => simp
    | entry name folder slash =>
      cases slash with
      | true => simp
      | false =>
        by_cases hname : 255 < name.utf8ByteSize
        · simp [hname]
        · simp [hname, Nat.not_lt.mp hname, eq_comm]

/-- What was written is read back. -/
theorem read_of_write (h : f.write path content = .ok g) : g.read path = .ok content := by
  obtain ⟨name, folder, hplace, hname, hg⟩ := write_eq_ok_iff.mp h
  have hagain : g.resolve path = .ok (.entry name folder false) :=
    resolve_eq_ok (by rw [hg]) (by rw [hg]) hplace
  have hlookup : g.lookup name folder = .ok content := by
    rw [lookup, if_neg (Nat.not_lt.mpr hname), hg, List.lookup_cons_self]
    rfl
  simp [read, hagain, hlookup, bind, Except.bind, pure, Except.pure]

end Folder

namespace Settings

variable {f g : Folder} {path : String}

theorem ofBytes_toUTF8 (path text : String) : ofBytes path text.toUTF8 = ofText (extension path) text := by
  have hvalid : text.toUTF8.IsValidUTF8 := text.isValidUTF8
  have htext : String.fromUTF8 text.toUTF8 hvalid = text := rfl
  rw [ofBytes, Text.Utf8.decode, dif_pos hvalid, htext]

theorem load_of_read {content : ByteArray} (h : g.read path = .ok content) :
    load g path = ofBytes path content := by
  rw [load, h]
  rfl

/-- A generated file is found where it was generated, and its text is read. -/
theorem load_eq_ofText (hgen : generate f path = .ok g) :
    load g path = ofText (extension path) (template path) := by
  unfold generate at hgen
  rw [load_of_read (Folder.read_of_write hgen), ofBytes_toUTF8]

/-! ## Extensions -/

/-- The last segment of a path ends as the path does. -/
theorem exists_segments {c : Char} (hlast : path.toList.getLast? = some c) (hc : c ≠ '/') :
    ∃ front last, Folder.segments path = front ++ [last] ∧ last.toList.getLast? = some c := by
  have hjoin : ['/'].intercalate (path.toList.splitOn '/') = path.toList := List.intercalate_splitOn '/'
  rcases List.eq_nil_or_concat (path.toList.splitOn '/') with hnil | ⟨front, last, hsplit⟩
  · exact absurd hnil (List.splitOn_ne_nil '/' _)
  rw [List.concat_eq_append] at hsplit
  refine ⟨front.map String.ofList, String.ofList last, ?_, ?_⟩
  · rw [Folder.segments, hsplit, List.map_append]
    rfl
  rw [String.toList_ofList]
  rw [← hjoin, hsplit] at hlast
  cases front with
  | nil => simpa using hlast
  | cons first more =>
    rw [List.cons_append, Json.intercalate_cons, List.flatMap_append] at hlast
    rcases List.eq_nil_or_concat last with rfl | ⟨most, d, rfl⟩
    · simp only [List.flatMap_cons, List.flatMap_nil, List.append_nil, ← List.append_assoc,
        List.getLast?_append, List.getLast?_singleton, Option.some_or, Option.some.injEq] at hlast
      exact absurd hlast.symm hc
    · simpa [List.getLast?_cons] using hlast

/-- An extension ends as its path does. -/
theorem extension_eq_or_getLast? {c : Char} (hlast : path.toList.getLast? = some c) (hslash : c ≠ '/')
    (hdot : c ≠ '.') : extension path = "" ∨ (extension path).toList.getLast? = some c := by
  obtain ⟨front, last, hsegments, hend⟩ := exists_segments hlast hslash
  have hname : last ∉ ["", "."] := by
    intro hmem
    simp only [List.mem_cons, List.not_mem_nil, or_false] at hmem
    rcases hmem with rfl | rfl
    · cases hend
    · exact hdot (Option.some.inj hend).symm
  have hkeep : ((Folder.segments path).filter (· ∉ ["", "."])).getLastD "" = last := by
    rw [hsegments, List.filter_append, List.filter_cons_of_pos (by simpa using hname), List.filter_nil,
      List.getLastD_concat]
  obtain ⟨most, hmost⟩ := List.getLast?_eq_some_iff.mp hend
  unfold extension
  simp only [hkeep]
  split
  · exact .inl rfl
  · refine .inr ?_
    simp [hmost, hdot]

/-! ## Loading what was generated -/

/-- A carriage return ends a line only in front of a line feed. -/
theorem newline_eq_none {c : Char} {after tail : List Char} (hfeed : '\n' ∉ c :: after)
    (hreturn : (c :: after).getLast? ≠ some '\r') : Toml.newline (c :: (after ++ '\n' :: tail)) = none := by
  unfold Toml.newline
  split
  · rename_i hcs
    exact absurd (List.mem_cons.mpr (.inl (List.cons.inj hcs).1.symm)) hfeed
  · rename_i rest hcs
    obtain ⟨rfl, hafter⟩ := List.cons.inj hcs
    cases after with
    | nil => exact absurd rfl hreturn
    | cons d after =>
      have hd : d = '\n' := (List.cons.inj hafter).1
      exact absurd (by simp [hd]) hfeed
  · rfl

/-- A template whose remark names a path on one line gives the defaults if what it shows of the path can
stand in a remark, and otherwise it is no template at all. -/
theorem ofToml?_template {shown : String} (hfeed : '\n' ∉ shown.toList)
    (hreturn : shown.toList.getLast? ≠ some '\r') :
    ofToml? (template shown) = if shown.toList.all isPrintable then some {} else none := by
  have htext : (template shown).toList = closedLines (templateLines shown {}) :=
    Toml.toList_join_lines _
  split
  · rename_i hprintable
    exact ofToml?_templateLines htext isWritable_default (List.all_eq_true.mp hprintable)
  · rename_i hprintable
    cases hrest : shown.toList.dropWhile isPrintable with
    | nil =>
      exact absurd (List.all_eq_true.mpr (List.dropWhile_eq_nil_iff.mp hrest)) hprintable
    | cons c after =>
      have hshown : shown.toList = shown.toList.takeWhile isPrintable ++ c :: after := by
        rw [← hrest, List.takeWhile_append_dropWhile]
      have hc : isPrintable c = false := by
        have h := List.head?_dropWhile_not isPrintable shown.toList
        simpa [hrest] using h
      refine ofToml?_eq_none_of_unprintable htext hshown (fun d hd ↦ List.mem_takeWhile_imp hd) hc
        fun tail ↦ newline_eq_none ?_ ?_
      · intro hmem
        exact hfeed (hshown ▸ List.mem_append_right _ hmem)
      · intro hend
        refine hreturn ?_
        rw [hshown, List.getLast?_append, hend]
        rfl

/-- A path whose extension is that of a template does not end in a carriage return. -/
theorem getLast?_ne_of_extension (hext : extension path = "toml") : path.toList.getLast? ≠ some '\r' := by
  intro hlast
  rcases extension_eq_or_getLast? hlast (by decide) (by decide) with hempty | hend
  · rw [hext] at hempty
    exact absurd hempty (by decide)
  · rw [hext] at hend
    exact absurd hend (by decide)

/-- A file that is generated at a path on one line loads as the defaults if its name can stand in a remark,
and otherwise not at all. -/
theorem load_generate (hext : extension path = "toml") (hgen : generate f path = .ok g)
    (hfeed : '\n' ∉ path.toList) :
    load g path = if path.toList.all isPrintable then .ok {} else .error (.settings .toml) := by
  rw [load_eq_ofText hgen, hext, ofText, if_pos rfl,
    ofToml?_template hfeed (getLast?_ne_of_extension hext)]
  split <;> rfl

/-- The file at a path in the empty folder. -/
theorem generate_empty (hplace : Folder.empty.resolve path = .ok (.entry path [] false))
    (hname : path.utf8ByteSize ≤ 255) :
    generate .empty path = .ok ⟨[([path], (template path).toUTF8)], [], []⟩ :=
  Folder.write_eq_ok_iff.mpr ⟨path, [], hplace, hname, rfl⟩

/-- Blanks and accents may stand in a name. -/
theorem load_generate_accented :
    extension "é x.toml" = "toml" ∧
      generate .empty "é x.toml" = .ok ⟨[(["é x.toml"], (template "é x.toml").toUTF8)], [], []⟩ ∧
        '\n' ∉ "é x.toml".toList ∧
          load ⟨[(["é x.toml"], (template "é x.toml").toUTF8)], [], []⟩ "é x.toml" = .ok {} := by
  have hext : extension "é x.toml" = "toml" := rfl
  have hplace : Folder.empty.resolve "é x.toml" = .ok (.entry "é x.toml" [] false) := by
    rw [Folder.resolve, String.contains_char_eq]
    rfl
  have hgen := generate_empty hplace (by decide)
  have hfeed : '\n' ∉ "é x.toml".toList := by decide
  exact ⟨hext, hgen, hfeed, (load_generate hext hgen hfeed).trans (if_pos (by decide))⟩

/-- A path with a line feed puts a line of its own into the file, which need not be a statement. -/
theorem load_generate_lineFeed :
    extension "a\nb.toml" = "toml" ∧
      generate .empty "a\nb.toml" = .ok ⟨[(["a\nb.toml"], (template "a\nb.toml").toUTF8)], [], []⟩ ∧
        load ⟨[(["a\nb.toml"], (template "a\nb.toml").toUTF8)], [], []⟩ "a\nb.toml" = .error (.settings .toml) := by
  have hext : extension "a\nb.toml" = "toml" := rfl
  have hplace : Folder.empty.resolve "a\nb.toml" = .ok (.entry "a\nb.toml" [] false) := by
    rw [Folder.resolve, String.contains_char_eq]
    rfl
  have hgen := generate_empty hplace (by decide)
  have hpath : "a\nb.toml".toList = ['a'] ++ '\n' :: 'b' :: ['.', 't', 'o', 'm', 'l'] := rfl
  have hnone : ofToml? (template "a\nb.toml") = none :=
    ofToml?_eq_none_of_lineFeed (Toml.toList_join_lines _) hpath (by simp [isPrintable]) (by decide)
      fun _ ↦ rfl
  refine ⟨hext, hgen, ?_⟩
  rw [load_eq_ofText hgen, hext, ofText, if_pos rfl, hnone]
  rfl

end Settings

end ReplicaChain
