import Mathlib.Data.List.Forall2
import ReplicaChain.Proofs.Text.JsonReading
import ReplicaChain.Toml.Document

/-!
# Reading TOML that was written plainly

Whoever writes TOML one statement to a line, with bare keys, without escapes and with numbers for figures,
gets back what was written.  The laws here follow the reader from the inside out: figures, values, keys,
lines, and documents.  A remark is the exception: it has to be printable, or the rest of its line is taken
for something else.
-/

namespace ReplicaChain.Toml

open Text (Reader eq_zero_of_toDigits isDigit_toDigits isDigitIn isDigitIn_ten toDigits_eq_cons)
open Text.Reader

variable {c : Char} {cs ds rest tail : List Char} {n : Nat}

/-- A step that reads each of some characters, and nothing after them, reads just these. -/
theorem many_of_mem {α : Type} {step : Reader α} {read : Char → α}
    (hstep : ∀ c ∈ cs, ∀ tail, step (c :: tail) = some (read c, tail)) (hstop : step rest = none) :
    many step (cs ++ rest) = (cs.map read, rest) := by
  let pieces := cs.map fun c ↦ ([c], read c)
  have hwritten : pieces.flatMap Prod.fst = cs := by
    simp [pieces, List.flatMap_map]
  have hvalues : pieces.map Prod.snd = cs.map read := by
    simp [pieces, Function.comp_def]
  have hread : many step (pieces.flatMap Prod.fst ++ rest) = (pieces.map Prod.snd, rest) := by
    refine many_pieces (fun _ ↦ True) (fun x hx tail _ ↦ ?_) (fun _ _ _ ↦ trivial) trivial hstop
      (fun x hx ↦ ?_) <;>
    obtain ⟨c, hc, rfl⟩ := List.mem_map.mp hx
    · exact hstep c hc tail
    · exact List.cons_ne_nil c []
  rwa [hwritten, hvalues] at hread

/-! ## Figures -/

section Figures

theorem ne_of_isDigit (hc : c.isDigit = true) {w : Char} (hw : w.isDigit = false) : w ≠ c := by
  rintro rfl
  rw [hc] at hw
  cases hw

/-- No word of letters or marks begins with a figure. -/
theorem word_of_isDigit (hc : c.isDigit = true) {w : Char} {ws : List Char} (hw : w.isDigit = false) :
    word (w :: ws) (c :: cs) = none :=
  if_neg (ne_of_isDigit hc hw)

theorem exactly_one {accepts : Char → Bool} (hc : accepts c = true) :
    exactly 1 accepts (c :: cs) = some ([c], cs) := by
  simp [exactly, hc]

/-- Behind figures that were read there are only more figures to the end of the line. -/
theorem exactly_figures (h : exactly n (isDigitIn 10) (cs ++ '\n' :: tail) = some (ds, rest)) :
    rest = cs.drop n ++ '\n' :: tail := by
  unfold exactly at h
  split at h
  · rename_i hread
    have hshort : n ≤ cs.length := by
      by_contra hlong
      have hmem : '\n' ∈ (cs ++ '\n' :: tail).take n := by
        rw [List.take_append, List.take_of_length_le (by omega)]
        obtain ⟨k, hk⟩ := Nat.exists_eq_succ_of_ne_zero (show n - cs.length ≠ 0 by omega)
        simp [hk]
      have hall := List.all_eq_true.mp (Bool.and_eq_true_iff.mp hread).2 '\n' hmem
      rw [isDigitIn_ten] at hall
      cases hall
    rw [← (Prod.mk.inj (Option.some.inj h)).2, List.drop_append_of_le_length hshort]
  · cases h

theorem field_figures {width least most : Nat}
    (h : field width least most (cs ++ '\n' :: tail) = some (n, rest)) :
    rest = cs.drop width ++ '\n' :: tail := by
  obtain ⟨⟨ds, more⟩, hread, hbounds⟩ := Option.bind_eq_some_iff.mp h
  rw [← exactly_figures hread]
  dsimp only at hbounds
  split at hbounds
  · exact (Prod.mk.inj (Option.some.inj hbounds)).2.symm
  · cases hbounds

/-- No mark stands behind figures that end their line. -/
theorem word_figures (hcs : ∀ d ∈ cs, d.isDigit = true) (hdigit : c.isDigit = false) (hc : c ≠ '\n') :
    word [c] (cs ++ '\n' :: tail) = none := by
  cases cs with
  | nil => exact if_neg hc
  | cons d cs => exact word_of_isDigit (hcs d List.mem_cons_self) hdigit

theorem date_figures (hcs : ∀ d ∈ cs, d.isDigit = true) : date (cs ++ '\n' :: tail) = none := by
  have hdrop (width : Nat) : ∀ d ∈ cs.drop width, d.isDigit = true :=
    fun d hd ↦ hcs d (List.mem_of_mem_drop hd)
  have hday : day (cs ++ '\n' :: tail) = none := by
    unfold day
    cases hread : field 4 0 9999 (cs ++ '\n' :: tail) with
    | none => rfl
    | some x => simp [field_figures hread, word_figures (hdrop 4)]
  have htime : time (cs ++ '\n' :: tail) = none := by
    unfold time
    cases hread : field 2 0 23 (cs ++ '\n' :: tail) with
    | none => rfl
    | some x => simp [field_figures hread, word_figures (hdrop 2)]
  rw [date, hday]
  exact htime

theorem digits_figures (hne : cs ≠ []) (hcs : ∀ d ∈ cs, d.isDigit = true) :
    digits 10 (cs ++ '\n' :: tail) = some (cs, '\n' :: tail) := by
  cases cs with
  | nil => exact absurd rfl hne
  | cons c cs =>
    let step : Reader (List Char) := fun cs ↦ exactly 1 (isDigitIn 10) (optionalWord ['_'] cs)
    have hstep : ∀ d ∈ cs, ∀ tail, step (d :: tail) = some ([d], tail) := by
      intro d hd tail
      have hdigit := hcs d (List.mem_cons_of_mem c hd)
      have hskip : optionalWord ['_'] (d :: tail) = d :: tail := by
        rw [optionalWord, word_of_isDigit hdigit rfl]
        rfl
      simp only [step, hskip]
      exact exactly_one (by rwa [isDigitIn_ten])
    have hread : many step (cs ++ '\n' :: tail) = (cs.map ([·]), '\n' :: tail) := many_of_mem hstep rfl
    have hfirst : isDigitIn 10 c = true := by
      rw [isDigitIn_ten]
      exact hcs c List.mem_cons_self
    have hflatten : (cs.map ([·])).flatten = cs := by
      simp [← List.flatMap_def]
    rw [digits, List.cons_append, exactly_one hfirst]
    change some ([c] ++ (many step (cs ++ '\n' :: tail)).1.flatten,
      (many step (cs ++ '\n' :: tail)).2) = _
    rw [hread, hflatten]
    rfl

end Figures

/-! ## Numbers -/

section Numbers

theorem decimalDigits_toDigits (n : Nat) (tail : List Char) :
    decimalDigits (Nat.toDigits 10 n ++ '\n' :: tail) = some (Nat.toDigits 10 n, '\n' :: tail) := by
  unfold decimalDigits
  split
  · rename_i rest hrest
    obtain ⟨d, ds, hds, -⟩ := toDigits_eq_cons n
    rw [hds, List.cons_append, List.cons.injEq] at hrest
    obtain rfl := eq_zero_of_toDigits (hds.trans (congrArg (· :: ds) hrest.1))
    obtain rfl : [] = ds := (List.cons.inj hds).2
    rw [← hrest.2]
    rfl
  · exact digits_figures Nat.toDigits_ne_nil isDigit_toDigits

theorem sign_of_isDigit (hc : c.isDigit = true) : sign (c :: cs) = (false, c :: cs) := by
  unfold sign
  split <;> simp_all

theorem fraction_toDigits (n : Nat) (tail : List Char) :
    fraction (Nat.toDigits 10 n ++ '\n' :: tail) = none := by
  obtain ⟨d, ds, hds, hd⟩ := toDigits_eq_cons n
  have hread := decimalDigits_toDigits n tail
  rw [hds, List.cons_append] at hread ⊢
  have hpoint : fractionDigits ('\n' :: tail) = none := rfl
  have hpower : exponent ('\n' :: tail) = none := rfl
  simp [fraction, sign_of_isDigit hd, word_of_isDigit hd, hread, hpoint, hpower]

theorem integer_toDigits (hn : n < 0x8000000000000000) (tail : List Char) :
    integer (Nat.toDigits 10 n ++ '\n' :: tail) = some ((n : Int), '\n' :: tail) := by
  have hvalue : Text.numeralBelow 0x8000000000000000 10 (Nat.toDigits 10 n) = some n := by
    rw [Text.numeralBelow_toDigits (by decide), if_pos hn]
  have hread := decimalDigits_toDigits n tail
  obtain ⟨d, ds, hds, hd⟩ := toDigits_eq_cons n
  rw [hds] at hread hvalue ⊢
  -- A letter after a zero would tell another base.
  have hbase : ∀ c rest, d :: (ds ++ '\n' :: tail) = '0' :: c :: rest → c = '\n' := by
    intro c rest hcs
    obtain ⟨hzero, hrest⟩ := List.cons.inj hcs
    obtain rfl := eq_zero_of_toDigits (hds.trans (congrArg (· :: ds) hzero))
    obtain rfl : [] = ds := (List.cons.inj hds).2
    exact (List.cons.inj hrest).1.symm
  rw [List.cons_append] at hread ⊢
  unfold integer
  split
  · exact absurd (hbase _ _ ‹_›) (by decide)
  · exact absurd (hbase _ _ ‹_›) (by decide)
  · exact absurd (hbase _ _ ‹_›) (by decide)
  · simp [sign_of_isDigit hd, hread, hvalue]

end Numbers

/-! ## Values -/

section Values

/-- A value is written by some characters if these are read as it to the end of the line. -/
structure Writes (written : List Char) (v : Value) : Prop where
  starts : ∀ tail, skipBlanks (written ++ tail) = written ++ tail
  reads : ∀ tail, value maxDepth (written ++ '\n' :: tail) = some (v, '\n' :: tail)

theorem skipBlanks_cons (hc : isBlank c = false) : skipBlanks (c :: cs) = c :: cs := by
  rw [skipBlanks, List.dropWhile_cons_of_neg (by simp [hc])]

theorem writes_true : Writes ['t', 'r', 'u', 'e'] (.boolean true) :=
  ⟨fun _ ↦ rfl, fun _ ↦ rfl⟩

theorem writes_false : Writes ['f', 'a', 'l', 's', 'e'] (.boolean false) :=
  ⟨fun _ ↦ rfl, fun _ ↦ rfl⟩

theorem value_of_isDigit (hc : c.isDigit = true) : value maxDepth (c :: cs) = numeric (c :: cs) := by
  have htext : text (c :: cs) = none := by
    simp [text, basicText, literalText, word_of_isDigit hc]
  have htrue : word "true".toList (c :: cs) = none := word_of_isDigit (w := 't') hc rfl
  have hfalse : word "false".toList (c :: cs) = none := word_of_isDigit (w := 'f') hc rfl
  have hscalar : scalar (c :: cs) = numeric (c :: cs) := by
    rw [scalar, htrue, hfalse]
  unfold maxDepth value
  split
  · exact absurd (List.cons.inj ‹_›).1.symm (ne_of_isDigit hc rfl)
  · exact absurd (List.cons.inj ‹_›).1.symm (ne_of_isDigit hc rfl)
  · rw [htext, hscalar]
    rfl

/-- A number that fits is written by its figures. -/
theorem writes_toDigits (hn : n < 0x8000000000000000) : Writes (Nat.toDigits 10 n) (.integer n) where
  starts tail := by
    obtain ⟨d, ds, hds, hd⟩ := toDigits_eq_cons n
    rw [hds, List.cons_append]
    refine skipBlanks_cons (Bool.eq_false_iff.mpr fun hblank ↦ ?_)
    simp only [isBlank, Bool.or_eq_true, decide_eq_true_eq] at hblank
    rcases hblank with rfl | rfl <;> cases hd
  reads tail := by
    have hnumeric : numeric (Nat.toDigits 10 n ++ '\n' :: tail) = some (.integer n, '\n' :: tail) := by
      rw [numeric, date_figures isDigit_toDigits, fraction_toDigits, integer_toDigits hn]
      rfl
    obtain ⟨d, ds, hds, hd⟩ := toDigits_eq_cons n
    rw [← hnumeric, hds]
    exact value_of_isDigit hd

/-- A character that stands for itself between double quotes. -/
def IsPlain (c : Char) : Prop :=
  c ≠ '"' ∧ c ≠ '\\' ∧ isPrintable c = true

instance : DecidablePred IsPlain :=
  fun _ ↦ inferInstanceAs (Decidable (_ ∧ _ ∧ _))

-- Only the characters of the text are looked at, not all characters there are.
instance (cs : List Char) : Decidable (∀ c ∈ cs, IsPlain c) :=
  List.decidableBAll IsPlain cs

theorem basicCharacter_of_isPlain (hc : IsPlain c) : basicCharacter (c :: cs) = some (c, cs) := by
  obtain ⟨hquote, hescape, hprintable⟩ := hc
  unfold basicCharacter
  split <;> simp_all

theorem basicText_of_isPlain (hcs : ∀ c ∈ cs, IsPlain c) :
    basicText ('"' :: (cs ++ '"' :: tail)) = some (String.ofList cs, tail) := by
  have hread : many basicCharacter (cs ++ '"' :: tail) = (cs.map id, '"' :: tail) :=
    many_of_mem (fun c hc _ ↦ basicCharacter_of_isPlain (hcs c hc)) rfl
  rw [List.map_id] at hread
  simp [basicText, word, hread]

/-- Plain characters between quotes write their text. -/
theorem writes_text (hcs : ∀ c ∈ cs, IsPlain c) :
    Writes ('"' :: (cs ++ ['"'])) (.string (String.ofList cs)) where
  starts _ := skipBlanks_cons rfl
  reads tail := by
    have hlong : word ['"', '"', '"'] ('"' :: (cs ++ '"' :: '\n' :: tail)) = none := by
      match cs, hcs with
      | [], _ => rfl
      | [c], hcs => simp [word, Ne.symm (hcs c (by simp)).1]
      | c :: d :: cs, hcs => simp [word, Ne.symm (hcs c (by simp)).1]
    have htext : text ('"' :: (cs ++ '"' :: '\n' :: tail)) = some (String.ofList cs, '\n' :: tail) := by
      rw [text, hlong, basicText_of_isPlain hcs]
      rfl
    have hwritten : '"' :: (cs ++ ['"']) ++ '\n' :: tail = '"' :: (cs ++ '"' :: '\n' :: tail) := by
      simp
    rw [hwritten]
    change ((text _).map _ <|> scalar _) = _
    rw [htext]
    rfl

end Values

/-! ## Keys -/

section Keys

def IsBare (name : List Char) : Prop :=
  name ≠ [] ∧ name.all isBareKey = true

instance : DecidablePred IsBare :=
  fun _ ↦ inferInstanceAs (Decidable (_ ∧ _))

variable {name : List Char}

theorem IsBare.isBareKey (h : IsBare name) : ∀ c ∈ name, isBareKey c = true :=
  List.all_eq_true.mp h.2

theorem IsBare.eq_cons (h : IsBare name) : ∃ c cs, name = c :: cs ∧ Toml.isBareKey c = true := by
  cases name with
  | nil => exact absurd rfl h.1
  | cons c cs => exact ⟨c, cs, rfl, h.isBareKey c List.mem_cons_self⟩

theorem ne_of_isBareKey (hc : isBareKey c = true) {d : Char} (hd : isBareKey d = false) : d ≠ c := by
  rintro rfl
  rw [hc] at hd
  cases hd

theorem isBlank_of_isBareKey (hc : isBareKey c = true) : isBlank c = false := by
  refine Bool.eq_false_iff.mpr fun hblank ↦ ?_
  simp only [isBlank, Bool.or_eq_true, decide_eq_true_eq] at hblank
  rcases hblank with rfl | rfl <;> cases hc

theorem keyPart_of_isBare (hname : IsBare name) (hc : isBareKey c = false) :
    keyPart (name ++ c :: tail) = some (String.ofList name, skipBlanks (c :: tail)) := by
  have hrun : run isBareKey (name ++ c :: tail) = some (name, c :: tail) := by
    rw [run, List.takeWhile_append_of_pos hname.isBareKey, List.dropWhile_append_of_pos hname.isBareKey]
    simp [hc, hname.1]
  obtain ⟨d, ds, rfl, hd⟩ := hname.eq_cons
  have hbasic : basicText (d :: (ds ++ c :: tail)) = none := by
    simp [basicText, word, ne_of_isBareKey hd (d := '"') rfl]
  have hliteral : literalText (d :: (ds ++ c :: tail)) = none := by
    simp [literalText, word, ne_of_isBareKey hd (d := '\'') rfl]
  rw [List.cons_append] at hrun ⊢
  simp [keyPart, skipBlanks_cons (isBlank_of_isBareKey hd), hbasic, hliteral, hrun]

/-- A bare key is read up to the next mark, unless that is a dot. -/
theorem key_of_isBare (hname : IsBare name) (hc : isBareKey c = false)
    (hdot : word ['.'] (skipBlanks (c :: tail)) = none) :
    key (name ++ c :: tail) = some (([], String.ofList name), skipBlanks (c :: tail)) := by
  have hmore (bound : List Char) :
      atMost (fun cs ↦ do keyPart (← word ['.'] cs)) bound (skipBlanks (c :: tail)) =
        ([], skipBlanks (c :: tail)) := by
    cases bound with
    | nil => rfl
    | cons b bound => simp [atMost_cons, hdot]
  have hparts : separated '.' keyPart (name ++ c :: tail) =
      some ([String.ofList name], skipBlanks (c :: tail)) := by
    rw [separated, keyPart_of_isBare hname hc]
    change some (String.ofList name :: (atMost _ _ _).1, (atMost _ _ _).2) = _
    rw [hmore]
  simp [key, hparts]

end Keys

/-! ## Lines -/

section Lines

variable {name : List Char} {label line written : String} {st : Statement} {v : Value}

/-- A line is read as a statement, whatever comes after it. -/
def ReadsAs (line : String) (st : Statement) : Prop :=
  ∀ tail, statement (line.toList ++ '\n' :: tail) = some (st, tail)

/-! Lines that say nothing. -/

theorem statement_remark (cs : List Char) :
    statement ('#' :: cs) = (lineEnd ('#' :: cs)).map (.empty, ·) := by
  change (do some (Statement.empty, ← lineEnd ('#' :: cs))) = _
  cases lineEnd ('#' :: cs) <;> rfl

/-- A remark goes as far as it is printable, and there the line has to end. -/
theorem lineEnd_remark (hcs : ∀ c ∈ cs, isPrintable c = true) (hc : isPrintable c = false) :
    lineEnd ('#' :: (cs ++ c :: tail)) = newline (c :: tail) := by
  have hdrop : (cs ++ c :: tail).dropWhile isPrintable = c :: tail := by
    rw [List.dropWhile_append_of_pos hcs, List.dropWhile_cons_of_neg (by simp [hc])]
  rw [lineEnd, skipBlanks_cons rfl, comment, hdrop]
  rfl

/-- A remark that ends with any printable text. -/
theorem readsAs_remark_append (hcs : cs.all isPrintable = true)
    (hwritten : ∀ c ∈ written.toList, isPrintable c = true) :
    ReadsAs (String.ofList ('#' :: cs) ++ written) .empty := by
  intro tail
  have hprintable : ∀ c ∈ cs ++ written.toList, isPrintable c = true := by
    intro c hc
    rcases List.mem_append.mp hc with hc | hc
    · exact List.all_eq_true.mp hcs c hc
    · exact hwritten c hc
  rw [String.toList_append, String.toList_ofList, List.cons_append, List.cons_append,
    statement_remark, lineEnd_remark hprintable rfl]
  rfl

/-- Whether a line is blank or a remark. -/
def isRemark : List Char → Bool
  | [] => true
  | '#' :: cs => cs.all isPrintable
  | _ => false

theorem readsAs_remark (h : isRemark cs = true) : ReadsAs (String.ofList cs) .empty := by
  unfold isRemark at h
  split at h
  · exact fun _ ↦ rfl
  · rename_i cs
    have hread : ReadsAs (String.ofList ('#' :: cs) ++ "") .empty := readsAs_remark_append h (by simp)
    rwa [String.append_empty] at hread
  · cases h

/-! Headers, and keys with their values. -/

theorem readsAs_header (hname : IsBare name) (hwritten : line = "[" ++ String.ofList name ++ "]") :
    ReadsAs line (.header [] (String.ofList name)) := by
  intro tail
  have hkey : key (name ++ ']' :: '\n' :: tail) =
      some (([], String.ofList name), ']' :: '\n' :: tail) :=
    key_of_isBare hname rfl rfl
  have hbetween : headerBetween ['['] [']'] .header ('[' :: (name ++ ']' :: '\n' :: tail)) =
      some (.header [] (String.ofList name), '\n' :: tail) := by
    simp [headerBetween, word, hkey]
  have hbody : statementBody ('[' :: (name ++ ']' :: '\n' :: tail)) =
      some (.header [] (String.ofList name), '\n' :: tail) := by
    obtain ⟨c, cs, rfl, hc⟩ := hname.eq_cons
    unfold statementBody
    split
    · cases ‹_›
    · cases (List.cons.inj ‹_›).1
    · cases (List.cons.inj ‹_›).1
    · cases (List.cons.inj ‹_›).1
    · rename_i hcs
      exact absurd (List.cons.inj (List.cons.inj hcs).2).1.symm (ne_of_isBareKey hc rfl)
    · exact hbetween
    · rename_i hbracket
      exact absurd rfl (hbracket _)
  have hline : line.toList ++ '\n' :: tail = '[' :: (name ++ ']' :: '\n' :: tail) := by
    simp [hwritten]
  rw [hline, statement, skipBlanks_cons rfl, hbody]
  rfl

/-- A key with a value is read as its assignment. -/
theorem readsAs_assignment (hname : IsBare name) (hlabel : label = String.ofList name ++ " = ")
    (hv : Writes written.toList v) :
    ReadsAs (label ++ written) (.assignment [] (String.ofList name) v) := by
  intro tail
  let rest := ' ' :: '=' :: ' ' :: (written.toList ++ '\n' :: tail)
  have hline : (label ++ written).toList ++ '\n' :: tail = name ++ rest := by
    simp [hlabel, rest]
  have hkey : key (name ++ rest) =
      some (([], String.ofList name), '=' :: ' ' :: (written.toList ++ '\n' :: tail)) :=
    key_of_isBare hname rfl rfl
  have hspace : skipBlanks (' ' :: (written.toList ++ '\n' :: tail)) = written.toList ++ '\n' :: tail :=
    hv.starts _
  have hpair : pair (value maxDepth) (name ++ rest) =
      some ((([], String.ofList name), v), '\n' :: tail) := by
    simp [pair, hkey, word, hspace, hv.reads]
  obtain ⟨c, cs, rfl, hc⟩ := hname.eq_cons
  have hother {d : Char} (hd : isBareKey d = false) : d ≠ c := ne_of_isBareKey hc hd
  rw [List.cons_append] at hpair
  have hbody : statementBody (c :: (cs ++ rest)) =
      some (.assignment [] (String.ofList (c :: cs)) v, '\n' :: tail) := by
    unfold statementBody
    split
    · cases ‹_›
    · exact absurd (List.cons.inj ‹_›).1.symm (hother rfl)
    · exact absurd (List.cons.inj ‹_›).1.symm (hother rfl)
    · exact absurd (List.cons.inj ‹_›).1.symm (hother rfl)
    · exact absurd (List.cons.inj ‹_›).1.symm (hother rfl)
    · exact absurd (List.cons.inj ‹_›).1.symm (hother rfl)
    · rw [hpair]
      rfl
  rw [hline, statement, List.cons_append, skipBlanks_cons (isBlank_of_isBareKey hc), hbody]
  rfl

theorem readsAs_decimal (hname : IsBare name) (hlabel : label = String.ofList name ++ " = ")
    (hn : n < 0x8000000000000000) :
    ReadsAs (label ++ Text.decimal n) (.assignment [] (String.ofList name) (.integer n)) := by
  refine readsAs_assignment hname hlabel ?_
  rw [Text.decimal, String.toList_ofList]
  exact writes_toDigits hn

theorem readsAs_truth (hname : IsBare name) (hlabel : label = String.ofList name ++ " = ") (b : Bool) :
    ReadsAs (label ++ if b then "true" else "false")
      (.assignment [] (String.ofList name) (.boolean b)) := by
  refine readsAs_assignment hname hlabel ?_
  cases b with
  | true => exact writes_true
  | false => exact writes_false

/-- A text stands between the quote that ends its label and another one. -/
theorem readsAs_text (hname : IsBare name) (hlabel : label = String.ofList name ++ " = \"")
    {s : String} (hs : ∀ c ∈ s.toList, IsPlain c) :
    ReadsAs (label ++ s ++ "\"") (.assignment [] (String.ofList name) (.string s)) := by
  have hwrites : Writes ("\"" ++ s ++ "\"").toList (.string s) := by
    have h := writes_text hs
    rw [String.ofList_toList] at h
    simpa using h
  have hread := readsAs_assignment hname rfl hwrites
  have hwritten : label ++ s ++ "\"" = String.ofList name ++ " = " ++ ("\"" ++ s ++ "\"") := by
    have hquote : " = \"" = " = " ++ "\"" := by decide
    simp only [hlabel, hquote, String.append_assoc]
  rwa [hwritten]

end Lines

/-! ## Documents -/

section Documents

variable {lines : List String} {statements : List Statement} {s : String}

def closedLines (lines : List String) : List Char :=
  lines.flatMap fun line ↦ line.toList ++ ['\n']

@[simp] theorem closedLines_nil : closedLines [] = [] := rfl

@[simp] theorem closedLines_cons (line : String) (lines : List String) :
    closedLines (line :: lines) = line.toList ++ '\n' :: closedLines lines := by
  simp [closedLines]

theorem toList_join_lines (lines : List String) :
    (String.join (lines.map (· ++ "\n"))).toList = closedLines lines := by
  simp [closedLines, String.toList_join, List.flatMap_map]

/-- Lines are read as statements one after another, up to what is no statement. -/
theorem many_closedLines (h : List.Forall₂ ReadsAs lines statements) (hstop : statement rest = none) :
    many statement (closedLines lines ++ rest) = (statements, rest) := by
  obtain ⟨hlength, hreads⟩ := List.forall₂_iff_zip.mp h
  let pieces := (lines.zip statements).map fun x ↦ (x.1.toList ++ ['\n'], x.2)
  have hwritten : pieces.flatMap Prod.fst = closedLines lines := by
    rw [closedLines, ← List.map_fst_zip hlength.le, List.flatMap_map, List.flatMap_map]
  have hvalues : pieces.map Prod.snd = statements := by
    rw [List.map_map]
    exact List.map_snd_zip hlength.ge
  rw [← hwritten, ← hvalues]
  refine many_pieces (fun _ ↦ True) (fun x hx tail _ ↦ ?_) (fun _ _ _ ↦ trivial) trivial hstop
    (fun x hx ↦ ?_) <;>
  obtain ⟨⟨line, st⟩, hmem, rfl⟩ := List.mem_map.mp hx
  · rw [List.append_assoc]
    exact hreads hmem tail
  · simp

/-- A document of lines means what its statements define. -/
theorem parse?_closedLines (h : List.Forall₂ ReadsAs lines statements)
    (hs : skipMark s.toList = closedLines lines) :
    parse? s = (statements.foldlM Progress.apply Progress.start).map (·.defined) := by
  have hread : many statement (closedLines lines ++ []) = (statements, []) := many_closedLines h rfl
  rw [List.append_nil] at hread
  rw [parse?, hs, hread]
  rfl

/-- A document of lines with something else behind them means nothing. -/
theorem parse?_eq_none_of_closedLines (h : List.Forall₂ ReadsAs lines statements)
    (hstop : statement rest = none) (hrest : skipBlanks rest ≠ [])
    (hs : skipMark s.toList = closedLines lines ++ rest) : parse? s = none := by
  rw [parse?, hs, many_closedLines h hstop]
  simp [hrest]

end Documents

/-! ## Sections -/

section Sections

variable {entries inner pairs : Entries} {path : List String} {key : String} {v : Value}
  {sections : List (String × Entries)} {statements : List Statement}

/-- The statements that give bare keys their values. -/
def assignments (pairs : Entries) : List Statement :=
  pairs.map fun x ↦ .assignment [] x.1 x.2

def sectionStatements (x : String × Entries) : List Statement :=
  .header [] x.1 :: assignments x.2

def sectionTable (x : String × Entries) : String × Value :=
  (x.1, .table .header x.2)

theorem lookup_eq_none_of_not_mem (h : key ∉ entries.map Prod.fst) : entries.lookup key = none := by
  rw [List.lookup_eq_none_iff]
  rintro ⟨k, v⟩ hmem
  refine bne_iff_ne.mpr ?_
  rintro rfl
  exact h (List.mem_map_of_mem hmem)

theorem lookup_append_self (h : key ∉ entries.map Prod.fst) :
    (entries ++ [(key, v)]).lookup key = some v := by
  rw [List.lookup_append, lookup_eq_none_of_not_mem h]
  simp

theorem replace_append_self (h : key ∉ entries.map Prod.fst) (old : Value) :
    Entries.replace key v (entries ++ [(key, old)]) = entries ++ [(key, v)] := by
  have hkeep : Entries.replace key v entries = entries := by
    refine (List.map_congr_left fun x hx ↦ if_neg ?_).trans (List.map_id _)
    rintro rfl
    exact h (List.mem_map_of_mem hx)
  unfold Entries.replace at hkeep ⊢
  rw [List.map_append, hkeep]
  simp

theorem apply_assignment (h : key ∉ entries.map Prod.fst) :
    Progress.apply ⟨entries, []⟩ (.assignment [] key v) = some ⟨entries ++ [(key, v)], []⟩ := by
  simp [Progress.apply, Entries.modifyAt, Entries.assign, Entries.define, lookup_eq_none_of_not_mem h]

theorem apply_header (h : key ∉ entries.map Prod.fst) :
    Progress.apply ⟨entries, path⟩ (.header [] key) =
      some ⟨entries ++ [(key, .table .header [])], [key]⟩ := by
  simp [Progress.apply, Entries.openTable, Entries.modifyAt, lookup_eq_none_of_not_mem h]

theorem apply_assignment_section {k : String} (hkey : key ∉ entries.map Prod.fst)
    (hk : k ∉ inner.map Prod.fst) :
    Progress.apply ⟨entries ++ [(key, .table .header inner)], [key]⟩ (.assignment [] k v) =
      some ⟨entries ++ [(key, .table .header (inner ++ [(k, v)]))], [key]⟩ := by
  simp [Progress.apply, Entries.modifyAt, Entries.assign, Entries.define, lookup_append_self hkey,
    lookup_eq_none_of_not_mem hk, replace_append_self hkey]

/-- The next of different keys is not defined yet, and after it the keys are still different. -/
theorem next_key {x : String × Value} (h : ((entries ++ x :: pairs).map Prod.fst).Nodup) :
    x.1 ∉ entries.map Prod.fst ∧ ((entries ++ [x] ++ pairs).map Prod.fst).Nodup := by
  refine ⟨fun hmem ↦ ?_, by simpa using h⟩
  rw [List.map_append] at h
  exact (List.nodup_append.mp h).2.2 _ hmem _ List.mem_cons_self rfl

/-- Keys that are all different get their values one after another. -/
theorem foldlM_assignments (h : ((entries ++ pairs).map Prod.fst).Nodup) :
    (assignments pairs).foldlM Progress.apply ⟨entries, []⟩ = some ⟨entries ++ pairs, []⟩ := by
  induction pairs generalizing entries with
  | nil => simp [assignments]
  | cons x pairs ih =>
    obtain ⟨hfree, hrest⟩ := next_key h
    have hread := ih hrest
    rw [assignments, List.map_cons, List.foldlM_cons, apply_assignment hfree]
    simpa [assignments] using hread

theorem foldlM_assignments_section (hkey : key ∉ entries.map Prod.fst)
    (h : ((inner ++ pairs).map Prod.fst).Nodup) :
    (assignments pairs).foldlM Progress.apply ⟨entries ++ [(key, .table .header inner)], [key]⟩ =
      some ⟨entries ++ [(key, .table .header (inner ++ pairs))], [key]⟩ := by
  induction pairs generalizing inner with
  | nil => simp [assignments]
  | cons x pairs ih =>
    obtain ⟨hfree, hrest⟩ := next_key h
    have hread := ih hrest
    rw [assignments, List.map_cons, List.foldlM_cons, apply_assignment_section hkey hfree]
    simpa [assignments] using hread

/-- Sections with different headers, in each of which the keys are different, become tables. -/
theorem foldlM_sections (path : List String)
    (h : ((entries ++ sections.map sectionTable).map Prod.fst).Nodup)
    (hsections : ∀ x ∈ sections, (x.2.map Prod.fst).Nodup) :
    ∃ place, (sections.flatMap sectionStatements).foldlM Progress.apply ⟨entries, path⟩ =
      some ⟨entries ++ sections.map sectionTable, place⟩ := by
  induction sections generalizing entries path with
  | nil => exact ⟨path, by simp⟩
  | cons x sections ih =>
    rw [List.map_cons] at h
    obtain ⟨hfree, hrest⟩ := next_key h
    change x.1 ∉ entries.map Prod.fst at hfree
    obtain ⟨place, hplace⟩ := ih [x.1] hrest fun y hy ↦ hsections y (List.mem_cons_of_mem x hy)
    have hsection :
        (assignments x.2).foldlM Progress.apply ⟨entries ++ [(x.1, .table .header [])], [x.1]⟩ =
          some ⟨entries ++ [sectionTable x], [x.1]⟩ :=
      foldlM_assignments_section hfree (hsections x List.mem_cons_self)
    refine ⟨place, ?_⟩
    rw [List.flatMap_cons, List.foldlM_append, sectionStatements, List.foldlM_cons, apply_header hfree]
    simp only [Option.bind_eq_bind, Option.bind_some, hsection]
    simpa using hplace

def Statement.isEmpty : Statement → Bool
  | .empty => true
  | _ => false

theorem foldlM_filter_isEmpty (p : Progress) :
    (statements.filter (!·.isEmpty)).foldlM Progress.apply p = statements.foldlM Progress.apply p := by
  induction statements generalizing p with
  | nil => rfl
  | cons st statements ih =>
    cases st with
    | empty => exact ih p
    | _ =>
      rw [List.filter_cons_of_pos rfl, List.foldlM_cons, List.foldlM_cons]
      exact congrArg _ (funext ih)

/-- Assignments with sections behind them define just what they say. -/
theorem foldlM_document
    (hstatements : statements.filter (!·.isEmpty) =
      assignments pairs ++ sections.flatMap sectionStatements)
    (h : ((pairs ++ sections.map sectionTable).map Prod.fst).Nodup)
    (hsections : ∀ x ∈ sections, (x.2.map Prod.fst).Nodup) :
    (statements.foldlM Progress.apply Progress.start).map (·.defined) =
      some (pairs ++ sections.map sectionTable) := by
  have hpairs : (([] ++ pairs).map Prod.fst).Nodup := by
    rw [List.map_append] at h
    exact (List.nodup_append.mp h).1
  obtain ⟨place, hplace⟩ := foldlM_sections [] h hsections
  rw [← foldlM_filter_isEmpty, hstatements, List.foldlM_append, Progress.start,
    foldlM_assignments hpairs]
  simp only [Option.bind_eq_bind, Option.bind_some, List.nil_append, hplace, Option.map_some]

end Sections

end ReplicaChain.Toml
