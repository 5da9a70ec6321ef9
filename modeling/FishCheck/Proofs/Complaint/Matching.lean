import FishCheck.Proofs.Complaint.Grammar
import FishCheck.Proofs.Text.LineSearch
import Mathlib.Data.List.Forall2
import Mathlib.Data.List.ReduceOption

/-!
# Complaints as matches of a pattern

The documented reading of checker output is a search for the multi-line pattern
`^(.+?) \(line (\d+)\): (.*?)\r?$` in the whole output.  This module shows that the search
captures exactly the cuts of the lines at their first marker, so that the complaints read
from a text are the matches of the pattern in it, and are what its lines report.

Main results:

- Theorem `first_errorLine`: where a line starts, the pattern matches the whole line or not
  at all, and captures the cut at the first marker.
- Theorem `captures_errorLine`: searching a whole text captures the cuts of its lines.
- Theorem `readAll_exact`: the complaints in a text are the matches of the pattern in it,
  and what its lines report.
-/

namespace FishCheck

namespace Complaint

open Search

/-! ## The pattern -/

/-- Any character but a line feed. -/
def inLine (c : Char) : Bool := c != '\n'

/-- The message up to the end of the line: `(.*?)\r?$`. -/
def messagePart : List Item := [.shortest 0 inLine, .optional '\r', .lineEnd]

/-- The digits and what follows them: `(\d+)\): (.*?)\r?$`. -/
def digitsPart : List Item :=
  .longest 1 Text.isDecimalDigit :: (closing.map .literal ++ messagePart)

/-- The marker and what follows it: ` \(line (\d+)\): (.*?)\r?$`. -/
def markerPart : List Item := opening.map .literal ++ digitsPart

/-- The lines that report an error: `^(.+?) \(line (\d+)\): (.*?)\r?$`. -/
def errorLine : List Item := .lineStart :: .shortest 1 inLine :: markerPart

/-- The complaint in the groups that a match captures, if the digits are a line number. -/
def ofGroups? : List Text → Option Complaint
  | [file, digits, message] => (lineNumber? digits).map fun n => ⟨file, n, message⟩
  | _ => none

/-- The groups that a line is cut into at its first marker. -/
def groups? (line : Text) : Option (List Text) :=
  (firstMarker? line).map fun (file, digits, rest) => [file, digits, Text.dropReturn rest]

/-- A line is read through the groups that it is cut into. -/
theorem ofLine_eq (line : Text) : ofLine? line = (groups? line).bind ofGroups? := by
  unfold ofLine? groups?
  cases firstMarker? line with
  | none => rfl
  | some cut =>
    obtain ⟨file, digits, rest⟩ := cut
    simp only [Option.bind_eq_bind, Option.bind_some, Option.map_some, ofGroups?]
    cases lineNumber? digits <;> rfl

/-! ## The end of a line -/

/-- The characters of a line are no line feeds. -/
theorem inLine_of_not_mem {c : Char} {cs : Text} (hline : '\n' ∉ c :: cs) : inLine c = true := by
  rw [inLine, bne_iff_ne]
  rintro rfl
  exact hline List.mem_cons_self

/-- A class without the line feed does not look behind the end of a line. -/
theorem takeWhile_line {p : Char → Bool} (hfeed : p '\n' = false) (line : Text) {tail : Text}
    (hend : AtLineEnd tail) :
    (line ++ tail).takeWhile p = line.takeWhile p ∧
      (line ++ tail).dropWhile p = line.dropWhile p ++ tail := by
  induction line with
  | nil =>
    rcases hend with rfl | ⟨cs, rfl⟩
    · exact ⟨rfl, rfl⟩
    · simp [hfeed]
  | cons c cs ih => by_cases hc : p c <;> simp [hc, ih]

/-- Taking a text without line feeds off a line does not depend on the lines behind it. -/
theorem isPrefixOf_line {lits : Text} (hlits : '\n' ∉ lits) (line : Text) {tail : Text}
    (hend : AtLineEnd tail) :
    lits.isPrefixOf? (line ++ tail) = (lits.isPrefixOf? line).map (· ++ tail) := by
  induction lits generalizing line with
  | nil => rfl
  | cons c lits ih =>
    rw [List.mem_cons, not_or] at hlits
    cases line with
    | cons d ds =>
      rw [List.cons_append, Text.isPrefixOf?_cons, Text.isPrefixOf?_cons]
      by_cases hcd : c = d
      · rw [if_pos hcd, if_pos hcd, ih hlits.2 ds]
      · rw [if_neg hcd, if_neg hcd, Option.map_none]
    | nil =>
      rcases hend with rfl | ⟨cs, rfl⟩
      · rfl
      · rw [List.nil_append, Text.isPrefixOf?_cons, if_neg (Ne.symm hlits.1)]
        rfl

/-! ## The message -/

/-- The pattern ends at the end of a line. -/
theorem first_end {tail : Text} (hend : AtLineEnd tail) :
    first? [.optional '\r', .lineEnd] ⟨false, tail⟩ = some ([], ⟨false, tail⟩) := by
  rw [first_optional, first_lineEnd, if_pos ((atLineEnd_iff tail).2 hend)]
  rcases hend with rfl | ⟨cs, rfl⟩
  · rfl
  · rfl

/-- One carriage return at the end of a line is passed over. -/
theorem first_end_return {tail : Text} (hend : AtLineEnd tail) :
    first? [.optional '\r', .lineEnd] ⟨false, '\r' :: tail⟩ = some ([], ⟨false, tail⟩) := by
  have hskip : Spot.skip? '\r' ⟨false, '\r' :: tail⟩ = some ⟨false, tail⟩ := rfl
  rw [first_optional, hskip, Option.bind_some, first_lineEnd,
    if_pos ((atLineEnd_iff tail).2 hend), Option.some_or]

/-- Anywhere else in a line the pattern does not end. -/
theorem first_end_none {c : Char} {cs tail : Text} (hline : '\n' ∉ c :: cs)
    (hreturn : c :: cs ≠ ['\r']) :
    first? [.optional '\r', .lineEnd] ⟨false, c :: cs ++ tail⟩ = none := by
  have hhere : ¬AtLineEnd (c :: cs ++ tail) := not_atLineEnd (List.cons_ne_nil c cs) hline
  rw [first_optional, first_lineEnd, if_neg (mt (atLineEnd_iff _).1 hhere), Option.or_none]
  by_cases hc : c = '\r'
  · subst hc
    have hcs : cs ≠ [] := fun h => hreturn (by rw [h])
    have hnext : ¬AtLineEnd (cs ++ tail) :=
      not_atLineEnd hcs (fun h => hline (List.mem_cons_of_mem _ h))
    have hskip : Spot.skip? '\r' ⟨false, '\r' :: cs ++ tail⟩ = some ⟨false, cs ++ tail⟩ := rfl
    rw [hskip, Option.bind_some, first_lineEnd, if_neg (mt (atLineEnd_iff _).1 hnext)]
  · have hskip : Spot.skip? '\r' ⟨false, c :: cs ++ tail⟩ = none := by
      simp [Spot.skip?, hc]
    rw [hskip, Option.bind_none]

theorem dropReturn_cons {c : Char} {cs : Text} (hreturn : c :: cs ≠ ['\r']) :
    Text.dropReturn (c :: cs) = c :: Text.dropReturn cs := by
  cases cs with
  | nil =>
    have hc : c ≠ '\r' := fun h => hreturn (by rw [h])
    simp [Text.dropReturn, hc]
  | cons d ds =>
    unfold Text.dropReturn
    rw [List.getLast?_cons_cons]
    split
    · rfl
    · rfl

/-- The message goes up to the end of the line, without a carriage return there. -/
theorem first_messagePart {message : Text} (hline : '\n' ∉ message) {tail : Text}
    (hend : AtLineEnd tail) :
    first? messagePart ⟨false, message ++ tail⟩ =
      some ([Text.dropReturn message], ⟨false, tail⟩) := by
  unfold messagePart
  induction message with
  | nil =>
    -- the empty message is the first choice, and the line ends behind it
    cases tail with
    | nil => rw [List.nil_append, first_shortest_nil, first_end hend]; rfl
    | cons c cs => rw [List.nil_append, first_shortest_cons, first_end hend]; rfl
  | cons c cs ih =>
    have hcs : '\n' ∉ cs := fun h => hline (List.mem_cons_of_mem c h)
    have hc : inLine c = true := inLine_of_not_mem hline
    rw [List.cons_append, first_shortest_cons]
    by_cases hreturn : c :: cs = ['\r']
    · obtain ⟨rfl, rfl⟩ := List.cons.inj hreturn
      rw [List.nil_append, first_end_return hend]
      rfl
    · rw [← List.cons_append, first_end_none hline hreturn, Option.map_none, Option.none_or,
        if_pos hc, feed_ne rfl hc, ih hcs, dropReturn_cons hreturn]
      rfl

/-! ## The marker -/

/-- The parts of a line hold no line feed. -/
theorem feed_not_mem_of_append {line start rest : Text} (hline : '\n' ∉ line)
    (heq : line = start ++ rest) : '\n' ∉ rest :=
  fun h => hline (heq ▸ List.mem_append_right start h)

/-- Behind the opening of a marker the pattern goes on when digits and the closing follow. -/
theorem first_digitsPart {line : Text} (hline : '\n' ∉ line) {tail : Text}
    (hend : AtLineEnd tail) :
    first? digitsPart ⟨false, line ++ tail⟩ =
      if line.takeWhile Text.isDecimalDigit = [] then none
      else (closing.isPrefixOf? (line.dropWhile Text.isDecimalDigit)).map fun rest =>
        ([line.takeWhile Text.isDecimalDigit, Text.dropReturn rest], ⟨false, tail⟩) := by
  have hclosing : '\n' ∉ closing := by decide
  have hfeed : Text.isDecimalDigit '\n' = false := by decide
  -- behind fewer digits comes a digit, which closes no marker
  have hfewer : ∀ c cs, Text.isDecimalDigit c = true →
      first? (closing.map .literal ++ messagePart) ⟨false, c :: cs⟩ = none := by
    intro c cs hc
    have hne : ')' ≠ c := by
      rintro rfl
      exact absurd hc (by decide)
    have hnot : closing.isPrefixOf? (c :: cs) = none :=
      (Text.isPrefixOf?_cons ')' c [':', ' '] cs).trans (if_neg hne)
    rw [first_literals hclosing, hnot, Option.bind_none]
  obtain ⟨htake, hdrop⟩ := takeWhile_line hfeed line hend
  rw [digitsPart, first_longest_one_eq hfeed hfewer, htake, hdrop, first_literals hclosing,
    isPrefixOf_line hclosing _ hend]
  cases hrest : closing.isPrefixOf? (line.dropWhile Text.isDecimalDigit) with
  | none => simp
  | some rest =>
    have hbehind : '\n' ∉ line.dropWhile Text.isDecimalDigit :=
      fun h => hline (List.dropWhile_subset _ h)
    have hmessage : '\n' ∉ rest :=
      feed_not_mem_of_append hbehind (Text.isPrefixOf?_eq_some_iff.1 hrest)
    simp only [Option.map_some, Option.bind_some, first_messagePart hmessage hend]
    rfl

/-- The pattern finds a marker where it is read, and captures its digits and what follows
without a carriage return at the end. -/
theorem first_markerPart {line : Text} (hline : '\n' ∉ line) {tail : Text}
    (hend : AtLineEnd tail) :
    first? markerPart ⟨false, line ++ tail⟩ =
      (marker? line).map fun (digits, rest) =>
        ([digits, Text.dropReturn rest], ⟨false, tail⟩) := by
  have hopening : '\n' ∉ opening := by decide
  rw [markerPart, first_literals hopening, isPrefixOf_line hopening line hend]
  cases hinner : opening.isPrefixOf? line with
  | none => simp [marker?, hinner]
  | some inner =>
    have hbehind : '\n' ∉ inner :=
      feed_not_mem_of_append hline (Text.isPrefixOf?_eq_some_iff.1 hinner)
    simp only [Option.map_some, Option.bind_some, first_digitsPart hbehind hend, marker?, hinner,
      Option.bind_eq_bind, List.isEmpty_iff]
    cases closing.isPrefixOf? (inner.dropWhile Text.isDecimalDigit) with
    | none => simp
    | some rest =>
      by_cases hdigits : inner.takeWhile Text.isDecimalDigit = [] <;> simp [hdigits]

/-! ## The line -/

/-- The match of a line that is cut at its first marker. -/
def lineMatch (tail : Text) (cut : Text × Text × Text) : Match :=
  ([cut.1, cut.2.1, Text.dropReturn cut.2.2], ⟨false, tail⟩)

/-- Behind the first character of a line, the shortest file that a marker follows is the
first match. -/
theorem first_filePart (c : Char) {line : Text} (hline : '\n' ∉ line) {tail : Text}
    (hend : AtLineEnd tail) :
    (first? (.shortest 0 inLine :: markerPart) ⟨false, line ++ tail⟩).map (push c) =
      (firstMarker? (c :: line)).map (lineMatch tail) := by
  induction line generalizing c with
  | nil =>
    have hnone : first? markerPart ⟨false, [] ++ tail⟩ = none := first_markerPart hline hend
    rcases hend with rfl | ⟨cs, rfl⟩
    · rw [List.nil_append] at hnone ⊢
      rw [first_shortest_nil, hnone]
      rfl
    · rw [List.nil_append] at hnone ⊢
      rw [first_shortest_cons, hnone]
      rfl
  | cons d ds ih =>
    have hds : '\n' ∉ ds := fun h => hline (List.mem_cons_of_mem d h)
    have hd : inLine d = true := inLine_of_not_mem hline
    rw [List.cons_append, first_shortest_cons, ← List.cons_append, first_markerPart hline hend,
      if_pos hd, feed_ne rfl hd, ih d hds]
    cases hmarker : marker? (d :: ds) with
    | some found =>
      have hcut : firstMarker? (c :: d :: ds) = some ([c], found) := by
        rw [firstMarker?, hmarker]
      rw [hcut]
      rfl
    | none =>
      have hcut : firstMarker? (c :: d :: ds) =
          (firstMarker? (d :: ds)).map fun cut => (c :: cut.1, cut.2) := by
        rw [firstMarker?, hmarker]
      rw [hcut, Option.map_none, Option.map_none, Option.none_or, Option.map_map, Option.map_map]
      rfl

/-- Where a line starts, the pattern matches the line up to its end or not at all, and
captures the file before the first marker, its digits, and the message. -/
theorem first_errorLine {line : Text} (hline : '\n' ∉ line) {tail : Text}
    (hend : AtLineEnd tail) :
    first? errorLine ⟨true, line ++ tail⟩ =
      (groups? line).map fun groups => (groups, ⟨false, tail⟩) := by
  rw [errorLine, first_lineStart, if_pos rfl, groups?]
  cases line with
  | nil =>
    rcases hend with rfl | ⟨cs, rfl⟩
    · rfl
    · rw [List.nil_append, first_shortest_succ]
      rfl
  | cons c cs =>
    have hcs : '\n' ∉ cs := fun h => hline (List.mem_cons_of_mem c h)
    have hc : inLine c = true := inLine_of_not_mem hline
    rw [List.cons_append, first_shortest_succ, if_pos hc, feed_ne rfl hc,
      first_filePart c hcs hend, Option.map_map]
    rfl

/-- Inside a line the pattern does not match. -/
theorem first_errorLine_inside (t : Text) : first? errorLine ⟨false, t⟩ = none := by
  rw [errorLine, first_lineStart, if_neg Bool.false_ne_true]

/-! ## The whole text -/

/-- The pattern starts with a line and matches up to its end. -/
theorem lineWise_errorLine : LineWise errorLine groups? where
  inside := first_errorLine_inside
  of_none hline hend hgroups := by
    rw [first_errorLine hline hend, hgroups, Option.map_none]
  of_some {line tail groups} hline hend hgroups := by
    have hne : line ≠ [] := by
      rintro rfl
      cases hgroups
    refine ⟨[], List.length_pos_iff.2 hne, List.not_mem_nil, ?_⟩
    rw [first_errorLine hline hend, hgroups, Option.map_some, List.nil_append]

/-- Searching a whole text captures the cuts of its lines at their first markers. -/
theorem captures_errorLine (t : Text) :
    captures errorLine ⟨true, t⟩ = (Text.pieces t).filterMap groups? :=
  lineWise_errorLine.captures_eq t

/-- The complaints in checker output are the matches of the pattern in it whose digits are a
line number, and they are what the stretches of the output between line feeds report, each
of them at most one complaint, in order. -/
theorem readAll_exact (output : Text) :
    readAll output = (captures errorLine ⟨true, output⟩).filterMap ofGroups? ∧
      ∃ found : List (Option Complaint),
        List.Forall₂ (fun line c? => ∀ c, c? = some c ↔ Reports line c)
          (output.splitOn '\n') found ∧
        readAll output = found.reduceOption := by
  constructor
  · rw [captures_errorLine, List.filterMap_filterMap, readAll]
    congr 1
    funext line
    exact ofLine_eq line
  · refine ⟨(output.splitOn '\n').map ofLine?, ?_, ?_⟩
    · rw [List.forall₂_map_right_iff, List.forall₂_same]
      exact fun line _ => ofLine_eq_some_iff line
    · rw [readAll, Text.pieces_eq_splitOn, List.reduceOption, List.filterMap_map]
      rfl

/-- A first marker without a line number drops its line, and only that line. -/
example : readAll "a (line 0): b (line 3): c\n/x (line 07): y\r" = [⟨"/x", 7, "y"⟩] := by
  decide

end Complaint

end FishCheck
