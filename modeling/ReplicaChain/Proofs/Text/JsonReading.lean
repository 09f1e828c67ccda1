import ReplicaChain.Json
import ReplicaChain.Proofs.Text.Numeral

/-!
# Reading JSON that was written plainly

Whoever writes JSON without white space, without escapes and with words for numbers gets back what was
written.  The laws here follow the reader from the inside out: characters of a text, figures of a number,
items between commas, and values that hold them.  What comes after a value does not matter, as long as it
cannot be taken for more of the value.
-/

namespace ReplicaChain

open Text (Reader eq_zero_of_toDigits isDigit_toDigits isDigitIn isDigitIn_ten toDigits_eq_cons)
open Text.Reader

/-! ## Repetition -/

section Repetition

variable {α : Type} {step : Reader α} {follows : List Char → Prop} {stop : List Char}
  {pieces : List (List Char × α)}

theorem Text.Reader.atMost_pieces
    (hstep : ∀ x ∈ pieces, ∀ tail, follows tail → step (x.1 ++ tail) = some (x.2, tail))
    (hnext : ∀ x ∈ pieces, ∀ tail, follows (x.1 ++ tail)) (hlast : follows stop)
    (hstop : step stop = none) {bound : List Char} (hbound : pieces.length ≤ bound.length) :
    atMost step bound (pieces.flatMap Prod.fst ++ stop) = (pieces.map Prod.snd, stop) := by
  induction pieces generalizing bound with
  | nil =>
    cases bound with
    | nil => rfl
    | cons b bound => simp [atMost_cons, hstop]
  | cons x pieces ih =>
    cases bound with
    | nil => simp at hbound
    | cons b bound =>
      have hfollows : follows (pieces.flatMap Prod.fst ++ stop) := by
        cases pieces with
        | nil => exact hlast
        | cons y pieces =>
          rw [List.flatMap_cons, List.append_assoc]
          exact hnext y (by simp) _
      have hrest := ih (fun y hy ↦ hstep y (List.mem_cons_of_mem x hy))
        (fun y hy ↦ hnext y (List.mem_cons_of_mem x hy)) (Nat.le_of_succ_le_succ hbound)
      rw [List.flatMap_cons, List.append_assoc, atMost_cons, hstep x List.mem_cons_self _ hfollows]
      simp only [hrest, List.map_cons]

variable (follows) in
/-- A step that reads each of some pieces, and nothing after them, reads just the pieces.  `follows` tells
what may stand after a piece. -/
theorem Text.Reader.many_pieces
    (hstep : ∀ x ∈ pieces, ∀ tail, follows tail → step (x.1 ++ tail) = some (x.2, tail))
    (hnext : ∀ x ∈ pieces, ∀ tail, follows (x.1 ++ tail)) (hlast : follows stop)
    (hstop : step stop = none) (hne : ∀ x ∈ pieces, x.1 ≠ []) :
    many step (pieces.flatMap Prod.fst ++ stop) = (pieces.map Prod.snd, stop) := by
  have hlength : pieces.length ≤ (pieces.flatMap Prod.fst).length := by
    clear hstep hnext
    induction pieces with
    | nil => exact Nat.le_refl 0
    | cons x pieces ih =>
      have hx := List.length_pos_iff.mpr (hne x List.mem_cons_self)
      have hrest := ih fun y hy ↦ hne y (List.mem_cons_of_mem x hy)
      rw [List.flatMap_cons, List.length_append, List.length_cons]
      omega
  refine atMost_pieces hstep hnext hlast hstop ?_
  rw [List.length_append]
  omega

end Repetition

namespace Json

variable {c : Char} {cs tail : List Char} {n : Nat}

/-! ## Texts -/

/-- A character that stands for itself in a text. -/
def IsPlain (c : Char) : Prop :=
  c ≠ '"' ∧ c ≠ '\\' ∧ 0x20 ≤ c.toNat

instance : DecidablePred IsPlain :=
  fun _ ↦ inferInstanceAs (Decidable (_ ∧ _ ∧ _))

-- Only the characters of the text are looked at, not all characters there are.
instance (cs : List Char) : Decidable (∀ c ∈ cs, IsPlain c) :=
  List.decidableBAll IsPlain cs

theorem codeUnit_of_isPlain (hc : IsPlain c) : codeUnit (c :: tail) = some (c.toNat, tail) := by
  obtain ⟨hquote, hescape, hvisible⟩ := hc
  unfold codeUnit
  split
  · simp_all
  · simp_all
  · simp_all
  · rename_i hcs
    cases hcs
    rw [if_neg (Nat.not_lt.mpr hvisible)]
  · simp_all

/-- No character is half of a surrogate pair. -/
theorem toNat_not_surrogate (c : Char) : ¬ (0xD800 ≤ c.toNat ∧ c.toNat < 0xE000) := by
  rcases c.valid with h | h
  · change c.toNat < 0xD800 at h
    omega
  · have hlarge : 0xDFFF < c.toNat := h.1
    omega

theorem characters_map_toNat (cs read : List Char) :
    characters (cs.map Char.toNat) read = some (read.reverse ++ cs) := by
  induction cs generalizing read with
  | nil => simp [characters]
  | cons c cs ih =>
    have hc := toNat_not_surrogate c
    cases cs with
    | nil => simp [characters, hc]
    | cons d cs =>
      have hhigh : ¬ (0xD800 ≤ c.toNat ∧ c.toNat < 0xDC00) := by omega
      have hlow : ¬ (0xDC00 ≤ c.toNat ∧ c.toNat < 0xE000) := by omega
      have hrest := ih (c :: read)
      rw [List.map_cons] at hrest
      rw [List.map_cons, List.map_cons, characters, if_neg hhigh, if_neg hlow, Char.ofNat_toNat,
        hrest]
      simp

/-- A text of plain characters between quotes is read as it stands. -/
theorem text_of_isPlain (hcs : ∀ c ∈ cs, IsPlain c) :
    text ('"' :: (cs ++ '"' :: tail)) = some (some (String.ofList cs), tail) := by
  let pieces := cs.map fun c ↦ ([c], c.toNat)
  have hwritten : pieces.flatMap Prod.fst = cs := by
    simp [pieces, List.flatMap_map]
  have hunits : pieces.map Prod.snd = cs.map Char.toNat := by
    simp [pieces]
  have hread : many codeUnit (pieces.flatMap Prod.fst ++ '"' :: tail) =
      (pieces.map Prod.snd, '"' :: tail) := by
    refine many_pieces (fun _ ↦ True) (fun x hx rest _ ↦ ?_) (fun _ _ _ ↦ trivial)
      trivial rfl (fun x hx ↦ ?_) <;>
    obtain ⟨c, hc, rfl⟩ := List.mem_map.mp hx
    · exact codeUnit_of_isPlain (hcs c hc)
    · exact List.cons_ne_nil c []
  rw [hwritten, hunits] at hread
  simp [text, word, hread, characters_map_toNat]

/-! ## Numbers -/

/-- A character that cannot go on a number. -/
def EndsNumber (c : Char) : Prop :=
  c.isDigit = false ∧ c ≠ '.' ∧ c ≠ 'e' ∧ c ≠ 'E'

instance : DecidablePred EndsNumber :=
  fun _ ↦ inferInstanceAs (Decidable (_ ∧ _ ∧ _ ∧ _))

theorem wholeDigits_toDigits (hc : EndsNumber c) :
    wholeDigits (Nat.toDigits 10 n ++ c :: tail) = some (Nat.toDigits 10 n, c :: tail) := by
  rcases Nat.eq_zero_or_pos n with rfl | hn
  · rfl
  · have hdigits : ∀ d ∈ Nat.toDigits 10 n, isDigitIn 10 d = true := by
      intro d hd
      rw [isDigitIn_ten]
      exact isDigit_toDigits d hd
    have hends : isDigitIn 10 c = false := by
      rw [isDigitIn_ten]
      exact hc.1
    have htake : (Nat.toDigits 10 n ++ c :: tail).takeWhile (isDigitIn 10) = Nat.toDigits 10 n := by
      rw [List.takeWhile_append_of_pos hdigits]
      simp [hends]
    have hdrop : (Nat.toDigits 10 n ++ c :: tail).dropWhile (isDigitIn 10) = c :: tail := by
      rw [List.dropWhile_append_of_pos hdigits]
      simp [hends]
    have hrun : run (isDigitIn 10) (Nat.toDigits 10 n ++ c :: tail) =
        some (Nat.toDigits 10 n, c :: tail) := by
      rw [run, htake, hdrop]
      simp [Nat.toDigits_ne_nil]
    unfold wholeDigits
    split
    · rename_i rest hrest
      obtain ⟨d, ds, hds, -⟩ := toDigits_eq_cons n
      rw [hds, List.cons_append, List.cons.injEq] at hrest
      have hzero := eq_zero_of_toDigits (hds.trans (congrArg (· :: ds) hrest.1))
      exact absurd hzero (Nat.ne_of_gt hn)
    · exact hrun

theorem numberTail_of_endsNumber (hc : EndsNumber c) :
    numberTail (c :: tail) = some (false, c :: tail) := by
  obtain ⟨-, hpoint, hsmall, hlarge⟩ := hc
  unfold numberTail
  split <;> simp_all

/-- The value of digits without sign, fraction and exponent. -/
def whole (n : Nat) : Json :=
  if n < 0x10000000000000000 then natural n else number

/-- A numeral is read as its number, if that is a word. -/
theorem numberValue_toDigits (hc : EndsNumber c) :
    numberValue (Nat.toDigits 10 n ++ c :: tail) = some (whole n, c :: tail) := by
  have hword : (Text.numeralBelow 0x10000000000000000 10 (Nat.toDigits 10 n)).elim number natural =
      whole n := by
    rw [Text.numeralBelow_toDigits (by decide), whole]
    split <;> rfl
  unfold numberValue
  split
  · rename_i rest hrest
    obtain ⟨d, ds, hds, hd⟩ := toDigits_eq_cons n
    rw [hds, List.cons_append, List.cons.injEq] at hrest
    rw [hrest.1] at hd
    cases hd
  · simp [wholeDigits_toDigits hc, numberTail_of_endsNumber hc, hword]

/-! ## Values -/

theorem value_of_isDigit (depth : Nat) (hc : c.isDigit = true) :
    value (depth + 1) (c :: tail) = numberValue (c :: tail) := by
  have hother (d : Char) (hd : d.isDigit = false) : d ≠ c := by
    rintro rfl
    rw [hc] at hd
    cases hd
  unfold value
  split
  · rename_i hcs
    exact absurd (List.cons.inj hcs).1.symm (hother '[' rfl)
  · rename_i hcs
    exact absurd (List.cons.inj hcs).1.symm (hother '\x7b' rfl)
  · rename_i hcs
    exact absurd (List.cons.inj hcs).1.symm (hother '"' rfl)
  · have hnull : word "null".toList (c :: tail) = none := if_neg (hother 'n' rfl)
    have htrue : word "true".toList (c :: tail) = none := if_neg (hother 't' rfl)
    have hfalse : word "false".toList (c :: tail) = none := if_neg (hother 'f' rfl)
    rw [hnull, htrue, hfalse]

theorem value_toDigits (depth : Nat) (hc : EndsNumber c) :
    value (depth + 1) (Nat.toDigits 10 n ++ c :: tail) = some (whole n, c :: tail) := by
  rw [← numberValue_toDigits hc]
  obtain ⟨d, ds, hds, hd⟩ := toDigits_eq_cons n
  rw [hds]
  exact value_of_isDigit depth hd

/-! ## Items between commas -/

/-- An item reader takes a piece of text, which may be followed by a comma or the closing character, for
an item. -/
structure Reads {α : Type} (item : Reader α) (closing : Char) (piece : List Char) (a : α) : Prop where
  starts : ∃ c rest, piece = c :: rest ∧ isSpace c = false ∧ c ≠ closing
  reads : ∀ c tail, c = ',' ∨ c = closing → item (piece ++ c :: tail) = some (a, c :: tail)

variable {α : Type} {item : Reader α} {closing : Char} {piece : List Char} {a : α}

theorem skipSpace_cons (hc : isSpace c = false) : skipSpace (c :: tail) = c :: tail := by
  rw [skipSpace, List.dropWhile_cons_of_neg (by simp [hc])]

def spaced (item : Reader α) : Reader α := fun cs ↦
  (item (skipSpace cs)).map fun (a, rest) ↦ (a, skipSpace rest)

/-- Without white space around it an item is read as it stands. -/
theorem Reads.spaced_eq (h : Reads item closing piece a) (hclosing : isSpace closing = false)
    (hc : c = ',' ∨ c = closing) : spaced item (piece ++ c :: tail) = some (a, c :: tail) := by
  have hc' : isSpace c = false := by
    rcases hc with rfl | rfl
    · rfl
    · exact hclosing
  obtain ⟨d, rest, hpiece, hd, -⟩ := h.starts
  have hskip : skipSpace (piece ++ c :: tail) = piece ++ c :: tail := by
    rw [hpiece]
    exact skipSpace_cons hd
  rw [spaced, hskip, h.reads c tail hc]
  exact congrArg (fun rest ↦ some (a, rest)) (skipSpace_cons hc')

/-- The first piece is followed by a comma or by the closing character. -/
theorem exists_eq_cons (pieces : List (List Char × α)) (closing : Char) (tail : List Char) :
    ∃ c rest, (c = ',' ∨ c = closing) ∧
      pieces.flatMap (fun x ↦ ',' :: x.1) ++ closing :: tail = c :: rest := by
  cases pieces with
  | nil => exact ⟨closing, tail, .inr rfl, rfl⟩
  | cons x pieces => exact ⟨',', _, .inl rfl, rfl⟩

theorem many_spaced (tail : List Char) {pieces : List (List Char × α)}
    (h : ∀ x ∈ pieces, Reads item closing x.1 x.2) (hclosing : isSpace closing = false)
    (hcomma : closing ≠ ',') :
    many (fun cs ↦ do spaced item (← word [','] cs))
        (pieces.flatMap (fun x ↦ ',' :: x.1) ++ closing :: tail) =
      (pieces.map Prod.snd, closing :: tail) := by
  let step : Reader α := fun cs ↦ do spaced item (← word [','] cs)
  let marked := pieces.map fun x ↦ (',' :: x.1, x.2)
  let follows (cs : List Char) := ∃ c rest, (c = ',' ∨ c = closing) ∧ cs = c :: rest
  have hwritten : marked.flatMap Prod.fst = pieces.flatMap fun x ↦ ',' :: x.1 := by
    simp [marked, List.flatMap_map]
  have hvalues : marked.map Prod.snd = pieces.map Prod.snd := by simp [marked]
  have hstop : step (closing :: tail) = none := by simp [step, word, Ne.symm hcomma]
  rw [← hvalues, ← hwritten]
  refine many_pieces follows (fun z hz rest hrest ↦ ?_) (fun z hz rest ↦ ?_)
    ⟨closing, tail, .inr rfl, rfl⟩ hstop (fun z hz ↦ ?_) <;>
  obtain ⟨x, hx, rfl⟩ := List.mem_map.mp hz
  · obtain ⟨c, rest, hc, rfl⟩ := hrest
    exact (h x hx).spaced_eq hclosing hc
  · exact ⟨',', x.1 ++ rest, .inl rfl, rfl⟩
  · exact List.cons_ne_nil ',' x.1

theorem intercalate_cons (mark : Char) (first : List Char) (more : List (List Char)) :
    [mark].intercalate (first :: more) = first ++ more.flatMap (mark :: ·) := by
  induction more generalizing first with
  | nil => simp
  | cons second more ih =>
    rw [List.intercalate_cons_cons, ih second]
    simp

/-- Pieces between commas are read as the items that they stand for. -/
theorem sequence_intercalate {pieces : List (List Char × α)}
    (h : ∀ x ∈ pieces, Reads item closing x.1 x.2) (hclosing : isSpace closing = false)
    (hcomma : closing ≠ ',') :
    sequence closing item ([','].intercalate (pieces.map Prod.fst) ++ closing :: tail) =
      some (pieces.map Prod.snd, tail) := by
  cases pieces with
  | nil => simp [sequence, skipSpace_cons hclosing, word]
  | cons x pieces =>
    let more := pieces.flatMap (fun x ↦ ',' :: x.1) ++ closing :: tail
    have hx : Reads item closing x.1 x.2 := h x List.mem_cons_self
    have hmore :=
      many_spaced tail (fun y hy ↦ h y (List.mem_cons_of_mem x hy)) hclosing hcomma
    have hwritten : [','].intercalate ((x :: pieces).map Prod.fst) ++ closing :: tail = x.1 ++ more := by
      simp [intercalate_cons, more, List.flatMap_map]
    have hopen : word [closing] (skipSpace (x.1 ++ more)) = none := by
      obtain ⟨d, rest, hpiece, hd, hne⟩ := hx.starts
      rw [hpiece, List.cons_append, skipSpace_cons hd]
      exact if_neg (Ne.symm hne)
    have hfirst : spaced item (x.1 ++ more) = some (x.2, more) := by
      obtain ⟨c, rest, hc, hcs⟩ := exists_eq_cons pieces closing tail
      rw [show more = c :: rest from hcs]
      exact hx.spaced_eq hclosing hc
    have hseparated : separated ',' (spaced item) (x.1 ++ more) =
        some (x.2 :: pieces.map Prod.snd, closing :: tail) := by
      rw [separated, hfirst]
      change some (x.2 :: (many _ more).1, (many _ more).2) = _
      rw [hmore]
    rw [hwritten, sequence, hopen]
    refine (congrArg (Option.bind · _) hseparated).trans ?_
    simp [word]

/-! ## Objects of words and arrays -/

def writtenEntry (name : String) (n : Nat) : List Char :=
  '"' :: (name.toList ++ '"' :: ':' :: Nat.toDigits 10 n)

def writtenObject (entries : List (String × Nat)) : List Char :=
  '\x7b' :: ([','].intercalate (entries.map fun x ↦ writtenEntry x.1 x.2) ++ ['\x7d'])

def objectOf (entries : List (String × Nat)) : Json :=
  object (entries.map fun x ↦ (some x.1, whole x.2))

def writtenArray (items : List (List Char)) : List Char :=
  '[' :: ([','].intercalate items ++ [']'])

def entryReader (depth : Nat) : Reader (Option String × Json) := fun cs ↦ do
  let (k, rest) ← text cs
  let (v, rest) ← value depth (skipSpace (← word [':'] (skipSpace rest)))
  some ((k, v), rest)

theorem value_brace (depth : Nat) (cs : List Char) :
    value (depth + 1) ('\x7b' :: cs) =
      (sequence '\x7d' (entryReader depth) cs).map fun (entries, rest) ↦ (object entries, rest) := rfl

theorem value_bracket (depth : Nat) (cs : List Char) :
    value (depth + 1) ('[' :: cs) =
      (sequence ']' (value depth) cs).map fun (items, rest) ↦ (array items, rest) := rfl

variable {name : String} {entries : List (String × Nat)}

theorem reads_writtenEntry (depth : Nat) (hname : ∀ c ∈ name.toList, IsPlain c) (n : Nat) :
    Reads (entryReader (depth + 1)) '\x7d' (writtenEntry name n) (some name, whole n) where
  starts := ⟨'"', _, rfl, rfl, by decide⟩
  reads c tail hc := by
    have hends : EndsNumber c := by rcases hc with rfl | rfl <;> decide
    have htext : text (writtenEntry name n ++ c :: tail) =
        some (some name, ':' :: (Nat.toDigits 10 n ++ c :: tail)) := by
      have hwritten : writtenEntry name n ++ c :: tail =
          '"' :: (name.toList ++ '"' :: (':' :: (Nat.toDigits 10 n ++ c :: tail))) := by
        simp [writtenEntry]
      rw [hwritten, text_of_isPlain hname, String.ofList_toList]
    have hspace : skipSpace (Nat.toDigits 10 n ++ c :: tail) = Nat.toDigits 10 n ++ c :: tail := by
      obtain ⟨d, ds, hds, hd⟩ := toDigits_eq_cons n
      rw [hds]
      refine skipSpace_cons ?_
      rw [Bool.eq_false_iff]
      intro hspace
      simp only [isSpace, Bool.or_eq_true, decide_eq_true_eq] at hspace
      rcases hspace with ((rfl | rfl) | rfl) | rfl <;> cases hd
    have hcolon : skipSpace (':' :: (Nat.toDigits 10 n ++ c :: tail)) =
        ':' :: (Nat.toDigits 10 n ++ c :: tail) := skipSpace_cons rfl
    simp [entryReader, htext, hcolon, word, hspace, value_toDigits depth hends]

theorem value_writtenObject (depth : Nat) (hnames : ∀ x ∈ entries, ∀ c ∈ x.1.toList, IsPlain c) :
    value (depth + 2) (writtenObject entries ++ tail) = some (objectOf entries, tail) := by
  let pieces := entries.map fun x ↦ (writtenEntry x.1 x.2, (some x.1, whole x.2))
  have hreads : ∀ x ∈ pieces, Reads (entryReader (depth + 1)) '\x7d' x.1 x.2 := by
    intro x hx
    obtain ⟨y, hy, rfl⟩ := List.mem_map.mp hx
    exact reads_writtenEntry depth (hnames y hy) y.2
  have hwritten : writtenObject entries ++ tail =
      '\x7b' :: ([','].intercalate (pieces.map Prod.fst) ++ '\x7d' :: tail) := by
    simp [writtenObject, pieces, Function.comp_def]
  rw [hwritten, value_brace, sequence_intercalate hreads rfl (by decide)]
  simp [objectOf, pieces]

theorem reads_writtenObject (depth : Nat) (hnames : ∀ x ∈ entries, ∀ c ∈ x.1.toList, IsPlain c) :
    Reads (value (depth + 2)) ']' (writtenObject entries) (objectOf entries) where
  starts := ⟨'\x7b', _, rfl, rfl, by decide⟩
  reads _ _ _ := value_writtenObject depth hnames

/-- A value that takes up all characters is a document. -/
theorem parse?_ofList {v : Json} (hspace : skipSpace cs = cs)
    (hread : value (cs.length + 1) cs = some (v, [])) : parse? (String.ofList cs) = some v := by
  have htext : (String.ofList cs).toList = cs := String.toList_ofList
  rw [parse?, htext, hspace, hread]
  rfl

/-- An object that was written is read as a document. -/
theorem parse?_writtenObject (hnames : ∀ x ∈ entries, ∀ c ∈ x.1.toList, IsPlain c) :
    parse? (String.ofList (writtenObject entries)) = some (objectOf entries) := by
  have hread : value ((writtenObject entries).length.pred + 2) (writtenObject entries ++ []) =
      some (objectOf entries, []) := value_writtenObject _ hnames
  have hlength : (writtenObject entries).length.pred + 2 = (writtenObject entries).length + 1 := by
    simp [writtenObject]
  rw [List.append_nil, hlength] at hread
  exact parse?_ofList (skipSpace_cons rfl) hread

/-- An array of objects that was written is read as a document. -/
theorem parse?_writtenArray (items : List (List (String × Nat)))
    (hnames : ∀ entries ∈ items, ∀ x ∈ entries, ∀ c ∈ x.1.toList, IsPlain c) :
    parse? (String.ofList (writtenArray (items.map writtenObject))) =
      some (array (items.map objectOf)) := by
  let pieces := items.map fun entries ↦ (writtenObject entries, objectOf entries)
  let written := writtenArray (items.map writtenObject)
  let inner := [','].intercalate (items.map writtenObject)
  have hreads : ∀ x ∈ pieces, Reads (value (inner.length + 2)) ']' x.1 x.2 := by
    intro x hx
    obtain ⟨entries, hentries, rfl⟩ := List.mem_map.mp hx
    exact reads_writtenObject _ (hnames entries hentries)
  have hlength : written.length + 1 = inner.length + 2 + 1 := by
    simp [written, writtenArray, inner]
  have hwritten : written = '[' :: ([','].intercalate (pieces.map Prod.fst) ++ ']' :: []) := by
    simp [written, writtenArray, pieces, Function.comp_def]
  have hread : value (written.length + 1) written = some (array (items.map objectOf), []) := by
    rw [hlength, hwritten, value_bracket, sequence_intercalate hreads rfl (by decide)]
    simp [pieces]
  exact parse?_ofList (skipSpace_cons rfl) hread

end Json

end ReplicaChain
