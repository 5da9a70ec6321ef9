import FishCheck.Proofs.Complaint.Grammar
import FishCheck.Proofs.Document.Places
import FishCheck.Proofs.Url.FilePaths

/-!
# Lines of checker output

The checker writes lines, each closed by a line feed, and prints an error with the file as
it was given.  This module follows such a line back to the document it is about: closed
lines are read one by one, a printed error gives its own file, number and message unless
the file holds a marker of its own, and an expanded file is a document when both have the
same components.

Main results:

- Theorem `readAll_closeLines`: closed lines are read each on its own.
- Theorem `ofLine_toLine`: a printed error is read back.
- Theorem `isAbout_iff`: a complaint is about the document with its path's components.
-/

namespace FishCheck

namespace Text

/-- A text without a line feed is one piece. -/
theorem pieces_of_line {p : Text} (h : '\n' ∉ p) : pieces p = [p] := by
  rw [pieces_eq_splitOn, List.splitOn_eq_singleton h]

/-- A piece ends at the first line feed. -/
theorem pieces_append_feed {p : Text} (h : '\n' ∉ p) (t : Text) :
    pieces (p ++ '\n' :: t) = p :: pieces t := by
  rw [pieces_eq_splitOn, List.splitOn_append_cons_self, List.splitOn_eq_singleton h,
    ← pieces_eq_splitOn]
  rfl

/-- Closed lines are pieces of their own, whatever follows them. -/
theorem pieces_closeLines_append {ps : List Text} (h : ∀ p ∈ ps, '\n' ∉ p) (t : Text) :
    pieces (closeLines ps ++ t) = ps ++ pieces t := by
  induction ps with
  | nil => rfl
  | cons p ps ih =>
    have hcons : closeLines (p :: ps) ++ t = p ++ '\n' :: (closeLines ps ++ t) := by
      simp [closeLines]
    rw [hcons, pieces_append_feed (h p List.mem_cons_self),
      ih fun q hq => h q (List.mem_cons_of_mem p hq), List.cons_append]

/-- Closed lines are the pieces of their text, with nothing behind the last line feed. -/
theorem pieces_closeLines {ps : List Text} (h : ∀ p ∈ ps, '\n' ∉ p) :
    pieces (closeLines ps) = ps ++ [[]] := by
  rw [← List.append_nil (closeLines ps), pieces_closeLines_append h]
  rfl

end Text

namespace Complaint

/-! ## Closed lines -/

/-- Closed lines are read each on its own. -/
theorem readAll_closeLines {ps : List Text} (h : ∀ p ∈ ps, '\n' ∉ p) :
    readAll (Text.closeLines ps) = ps.filterMap ofLine? := by
  have hempty : ofLine? [] = none := rfl
  rw [readAll, Text.pieces_closeLines h, List.filterMap_append]
  simp [hempty]

/-! ## Printed errors -/

/-- A line that is not cut has no marker that something stands before. -/
theorem not_marked_of_firstMarker {line : Text} (h : firstMarker? line = none)
    (file digits rest : Text) : ¬ Marked line file digits rest := by
  induction line generalizing file with
  | nil =>
    intro hmarked
    have hnil := hmarked.line_eq
    rw [eq_comm, List.append_eq_nil_iff] at hnil
    exact hmarked.file_ne_nil hnil.1
  | cons c cs ih =>
    intro hmarked
    cases hmarker : marker? cs with
    | some found => simp [firstMarker?, hmarker] at h
    | none =>
      simp only [firstMarker?, hmarker, Option.map_eq_none_iff] at h
      rcases marked_cons_iff.1 hmarked with ⟨-, hfound⟩ | ⟨file', -, hrest⟩
      · rw [hmarker] at hfound
        cases hfound
      · exact ih h file' hrest

/-- A file without a marker of its own, even when a space follows it. -/
def Unmarked (file : Text) : Prop :=
  ∀ front digits rest, ¬ Marked (file ++ [' ']) front digits rest

/-- Whether a file is unmarked can be told by reading it. -/
theorem unmarked_of_firstMarker {file : Text} (h : firstMarker? (file ++ [' ']) = none) :
    Unmarked file :=
  not_marked_of_firstMarker h

/-- A marker has one opening bracket. -/
theorem count_marker {digits : Text} (h : ∀ c ∈ digits, Text.isDecimalDigit c = true) :
    (opening ++ digits ++ closing).count '(' = 1 := by
  have hdigits : digits.count '(' = 0 := by
    refine List.count_eq_zero.2 fun hmem => ?_
    exact absurd (h _ hmem) (by decide)
  rw [List.count_append, List.count_append, hdigits]
  decide

/-- A marker that starts before a stretch of text that a marker follows ends with it, or
with the space that starts the second marker. -/
theorem marker_before_opening {digits rest behind : Text} {c : Char} {cs : Text}
    (hdigits : ∀ d ∈ digits, Text.isDecimalDigit d = true)
    (h : opening ++ digits ++ closing ++ rest = (c :: cs) ++ (' ' :: '(' :: behind)) :
    ∃ rest', (c :: cs) ++ [' '] = opening ++ digits ++ closing ++ rest' := by
  have hsplit : (opening ++ digits ++ closing) ++ rest = ((c :: cs) ++ [' ']) ++ ('(' :: behind) := by
    rw [h, List.append_assoc, List.singleton_append]
  rcases List.append_eq_append_iff.1 hsplit with ⟨rest', hrest, -⟩ | ⟨more, hmore, hbehind⟩
  · exact ⟨rest', hrest⟩
  · cases more with
    | nil => exact ⟨[], by rw [List.append_nil, hmore, List.append_nil]⟩
    | cons d ds =>
      -- The first marker would go on with the bracket of the second one; that bracket is
      -- its own second character, so nothing but a space stands before.
      exfalso
      obtain ⟨rfl, -⟩ := List.cons.inj hbehind
      have hcount := count_marker hdigits
      rw [hmore] at hcount
      cases cs with
      | nil =>
        have hbracket : '(' = ' ' := (List.cons.inj (List.cons.inj hmore).2).1
        exact absurd hbracket (by decide)
      | cons e es =>
        have hbracket : '(' = e := (List.cons.inj (List.cons.inj hmore).2).1
        simp only [← hbracket, List.cons_append, List.count_cons, List.count_append,
          beq_self_eq_true, if_true] at hcount
        omega

/-- A printed line is cut behind its file when the file is unmarked. -/
theorem firstMarked_of_unmarked {file digits : Text} (hne : file ≠ []) (hclean : Unmarked file)
    (hdigits : digits ≠ []) (hdecimal : ∀ d ∈ digits, Text.isDecimalDigit d = true)
    (message : Text) :
    FirstMarked (file ++ (opening ++ digits ++ closing ++ message)) file digits message := by
  refine ⟨⟨hne, hdigits, hdecimal, rfl⟩, fun front digits' rest hmarked => ?_⟩
  by_contra hshort
  have hbehind : ∃ behind, opening ++ digits ++ closing ++ message = ' ' :: '(' :: behind :=
    ⟨_, rfl⟩
  obtain ⟨behind, hbehind⟩ := hbehind
  rcases List.append_eq_append_iff.1 hmarked.line_eq with ⟨more, hfront, -⟩ | ⟨more, hfile, hmore⟩
  · rw [hfront, List.length_append] at hshort
    omega
  · cases more with
    | nil =>
      rw [hfile, List.append_nil] at hshort
      omega
    | cons c cs =>
      rw [hbehind] at hmore
      obtain ⟨rest', hrest⟩ := marker_before_opening hmarked.decimal hmore
      refine hclean front digits' rest' ⟨hmarked.file_ne_nil, hmarked.digits_ne_nil,
        hmarked.decimal, ?_⟩
      rw [hfile, List.append_assoc, hrest]

/-- A printed error is one line when its file and its message are. -/
theorem feed_not_mem_toLine {c : Complaint} (hfile : '\n' ∉ c.file) (hmessage : '\n' ∉ c.message) :
    '\n' ∉ c.toLine := by
  obtain ⟨-, hdigits, -⟩ :=
    (Text.natural_eq_some_iff (Text.decimal c.line) c.line).1 (Text.natural_decimal c.line)
  have hnumber : '\n' ∉ Text.decimal c.line := fun hmem =>
    absurd (hdigits '\n' hmem) (by decide)
  have hopening : '\n' ∉ opening := by decide
  have hclosing : '\n' ∉ closing := by decide
  simp [toLine, hfile, hopening, hnumber, hclosing, hmessage]

/-- An error is read back from its file, its number and any text that ends in its message,
but for a carriage return. -/
theorem ofLine_of_dropReturn {c : Complaint} (hfile : c.file ≠ []) (hclean : Unmarked c.file)
    (hpos : 1 ≤ c.line) (hlt : c.line < 2 ^ 32) {rest : Text}
    (hmessage : Text.dropReturn rest = c.message) :
    ofLine? (c.file ++ (opening ++ Text.decimal c.line ++ closing ++ rest)) = some c := by
  obtain ⟨hne, hascii, hvalue⟩ :=
    (Text.natural_eq_some_iff (Text.decimal c.line) c.line).1 (Text.natural_decimal c.line)
  have hdecimal : ∀ d ∈ Text.decimal c.line, Text.isDecimalDigit d = true := by
    intro d hd
    exact Text.isDecimalDigit_of_digitValue (by rw [Text.digitValue?, if_pos (hascii d hd)])
  have hcut := firstMarked_of_unmarked hfile hclean hne hdecimal rest
  rw [ofLine_eq_some_iff]
  exact ⟨Text.decimal c.line, rest, hcut, hascii, hvalue, hpos, hlt,
    (Text.dropReturn_eq_iff rest c.message).1 hmessage⟩

/-- A printed error is read back. -/
theorem ofLine_toLine {c : Complaint} (hfile : c.file ≠ []) (hclean : Unmarked c.file)
    (hpos : 1 ≤ c.line) (hlt : c.line < 2 ^ 32) (hmessage : c.message.getLast? ≠ some '\r') :
    ofLine? c.toLine = some c := by
  have hline : c.toLine =
      c.file ++ (opening ++ Text.decimal c.line ++ closing ++ c.message) := by
    simp only [toLine, List.append_assoc]
  have hdrop : Text.dropReturn c.message = c.message :=
    (Text.dropReturn_eq_iff c.message c.message).2 (Or.inr ⟨rfl, hmessage⟩)
  rw [hline]
  exact ofLine_of_dropReturn hfile hclean hpos hlt hdrop

/-! ## The document that a complaint is about -/

/-- A complaint is about the document with its path's components. -/
theorem isAbout_iff {c : Complaint} {document : Path} {home : Option Path} :
    c.isAbout document home = true ↔
      document.isAbsolute = true ∧ (c.path home).isAbsolute = true ∧
        (c.path home).components = document.components := by
  unfold isAbout
  cases hdocument : document.isAbsolute with
  | false => simp [(Url.ofPath_eq_none_iff document).2 hdocument]
  | true =>
    cases hpath : (c.path home).isAbsolute with
    | false => simp [(Url.ofPath_eq_none_iff (c.path home)).2 hpath]
    | true =>
      have hurls := Url.ofPath_eq_ofPath_iff hpath hdocument
      rw [Url.ofPath_of_isAbsolute hpath, Url.ofPath_of_isAbsolute hdocument] at hurls ⊢
      simp only [true_and, ← hurls, beq_iff_eq, Option.some_inj]
      exact eq_comm

/-- Only a `~` alone or before a separator is expanded. -/
theorem expandHome_of_other {file : Text} (halone : file ≠ "~") (hslash : ¬ "~/".toList <+: file)
    (hback : ¬ "~\\".toList <+: file) (home : Option Path) :
    expandHome file home = Path.ofText file := by
  have hnone : ∀ start : Text, ¬ start <+: file → start.isPrefixOf? file = none := by
    intro start hstart
    rw [Option.eq_none_iff_forall_ne_some]
    intro rest hrest
    exact hstart ⟨rest, (Text.isPrefixOf?_eq_some_iff.1 hrest).symm⟩
  cases home with
  | none => rfl
  | some home =>
    simp only [expandHome, if_neg halone, hnone _ hslash, hnone _ hback]
    rfl

/-- Only a file that starts with `~` is expanded. -/
theorem expandHome_of_head {file : Text} (h : file.head? ≠ some '~') (home : Option Path) :
    expandHome file home = Path.ofText file := by
  refine expandHome_of_other ?_ ?_ ?_ home
  · rintro rfl
    exact h rfl
  · rintro ⟨rest, rfl⟩
    exact h rfl
  · rintro ⟨rest, rfl⟩
    exact h rfl

end Complaint

end FishCheck
