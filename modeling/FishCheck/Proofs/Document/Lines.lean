import FishCheck.Proofs.Document.ByteIndex

/-!
# Lines with their ends

The lines of a document leave their terminators out: a line feed, or a carriage return and a
line feed.  With these put back, the lines in order are the text again, and what stands before
a line is the lines before it.  A carriage return is part of a terminator only where a line
feed follows, so one at the end of the text, or in front of another one, stays on its line.

Main results:

- Theorem `ending_of_line`: how a line before the last one ends.
- Theorem `take_lineStart`: the text before a line is the lines before it with their ends.
- Theorem `offsetAt_line`: so many bytes stand before a line as the lines before it have.
- Theorem `line?_eq_slice`: a line is the slice from its start to its length.
- Theorem `lines_partition`: the lines with their ends are the text, and the index holds
  where each of them starts.
-/

namespace FishCheck

/-- The bytes of texts in a row are the bytes of each of them. -/
theorem Utf8.size_flatMap {α : Type} (l : List α) (f : α → Text) :
    size (l.flatMap f) = Text.total (l.map fun a => size (f a)) := by
  induction l with
  | nil => rfl
  | cons a l ih => rw [List.flatMap_cons, size_append, ih, List.map_cons, Text.total_cons]

namespace Document

/-! ## Ends of lines -/

/-- What ends a line: a line feed, with the carriage return right before it if there is one.
Nothing ends the last line. -/
def terminator (d : Document) (n : Nat) : Text :=
  if n + 1 < d.lineCount then
    if d.pieces[n]?.bind List.getLast? = some '\r' then ['\r', '\n'] else ['\n']
  else []

/-- A line with what ends it. -/
def closedLine (d : Document) (n : Nat) : Text := (d.line? n).getD [] ++ d.terminator n

theorem isSome_line?_iff (d : Document) (n : Nat) : (d.line? n).isSome ↔ n < d.lineCount := by
  rw [line?, Option.isSome_map, isSome_getElem?]
  exact Iff.rfl

theorem le_lastLine_of_line? {d : Document} {n : Nat} {content : Text}
    (h : d.line? n = some content) : n ≤ d.lastLine := by
  have hsome : n < d.lineCount := (d.isSome_line?_iff n).1 (by rw [h]; rfl)
  rw [lineCount_eq_succ] at hsome
  exact Nat.le_of_lt_succ hsome

/-- No line holds a line feed. -/
theorem not_mem_of_line? {d : Document} {n : Nat} {content : Text}
    (h : d.line? n = some content) : '\n' ∉ content := by
  obtain ⟨-, other, -, -, hline, hfeed, -⟩ := d.exists_place (le_lastLine_of_line? h)
  rwa [Option.some.inj (h.symm.trans hline)]

/-- A line before the last one is its piece of the text without a carriage return at the end,
and that goes to the terminator. -/
theorem ending_of_line {d : Document} {n : Nat} {piece : Text} (hpiece : d.pieces[n]? = some piece)
    (h : n + 1 < d.lineCount) :
    ∃ content, d.line? n = some content ∧
      ((piece = content ++ ['\r'] ∧ d.terminator n = ['\r', '\n']) ∨
        (piece = content ∧ content.getLast? ≠ some '\r' ∧ d.terminator n = ['\n'])) := by
  refine ⟨Text.dropReturn piece, by rw [line?, hpiece, Option.map_some, if_pos h], ?_⟩
  rw [terminator, if_pos h, hpiece, Option.bind_some]
  rcases (Text.dropReturn_eq_iff piece _).1 rfl with hreturn | ⟨hsame, hnone⟩
  · left
    have hlast : piece.getLast? = some '\r' := by
      rw [hreturn]
      exact List.getLast?_concat
    exact ⟨hreturn, if_pos hlast⟩
  · right
    rw [← hsame] at hnone ⊢
    exact ⟨rfl, hnone, if_neg hnone⟩

/-- A line before the last one is, with its end, its piece of the text and the line feed
behind that. -/
theorem closedLine_of_lt {d : Document} {n : Nat} {piece : Text}
    (hpiece : d.pieces[n]? = some piece) (h : n + 1 < d.lineCount) :
    d.closedLine n = piece ++ ['\n'] := by
  obtain ⟨content, hline, ⟨rfl, hend⟩ | ⟨rfl, -, hend⟩⟩ := ending_of_line hpiece h
  · rw [closedLine, hline, hend, Option.getD_some, List.append_assoc, List.singleton_append]
  · rw [closedLine, hline, hend, Option.getD_some]

theorem terminator_of_last {d : Document} {n : Nat} (h : ¬ n + 1 < d.lineCount) :
    d.terminator n = [] :=
  if_neg h

/-- Nothing is left of the last piece, and nothing added to it. -/
theorem closedLine_of_last {d : Document} {n : Nat} {piece : Text}
    (hpiece : d.pieces[n]? = some piece) (h : ¬ n + 1 < d.lineCount) :
    d.closedLine n = piece := by
  rw [closedLine, terminator_of_last h, line?, hpiece, Option.map_some, if_neg h,
    Option.getD_some, List.append_nil]

/-! ## Lines as ranges -/

/-- The range of a line without its end. -/
def lineRange (d : Document) (n : Nat) : Range := ⟨⟨n, 0⟩, ⟨n, d.lineLength n⟩⟩

theorem containsRange_lineRange {d : Document} {n : Nat} (h : n ≤ d.lastLine) :
    d.ContainsRange (d.lineRange n) :=
  ⟨⟨h, Nat.zero_le _⟩, ⟨h, Nat.le_refl _⟩, Or.inr ⟨rfl, Nat.zero_le _⟩⟩

theorem indexAt_lineStart {d : Document} {n : Nat} (h : n ≤ d.lastLine) :
    d.indexAt ⟨n, 0⟩ = d.lineStart n := by
  obtain ⟨piece, content, -, hline, -⟩ := d.exists_line h
  have hcontains : d.Contains ⟨n, 0⟩ := (containsRange_lineRange h).1
  rw [indexAt_of_contains hcontains hline, charactersFor_zero, Nat.add_zero]

/-- The slice of a line's range is the line. -/
theorem line?_eq_slice {d : Document} {n : Nat} (h : n ≤ d.lastLine) :
    d.line? n = some (d.slice (d.lineRange n)) := by
  obtain ⟨before, content, behind, htext, hline, -, hlength, -⟩ := d.exists_place h
  have hstop : d.indexAt (d.lineRange n).stop = (before ++ content).length := by
    rw [indexAt_of_contains (containsRange_lineRange h).2.1 hline, List.length_append, hlength,
      ← charactersFor_length content, ← lineLength_of_line? hline]
    rfl
  rw [slice_of_containsRange (containsRange_lineRange h), hstop, htext, List.take_left]
  change _ = some ((before ++ content).drop (d.indexAt ⟨n, 0⟩))
  rw [indexAt_lineStart h, ← hlength, List.drop_left, hline]

/-! ## The text before a line -/

/-- What stands behind the start of a line starts with the line and its end.  The next line
starts behind these, or nothing is left. -/
theorem exists_closedLine (d : Document) {n : Nat} (h : n ≤ d.lastLine) :
    ∃ rest, d.text.drop (d.lineStart n) = d.closedLine n ++ rest ∧
      (n + 1 < d.lineCount → d.lineStart (n + 1) = d.lineStart n + (d.closedLine n).length) ∧
      (¬ n + 1 < d.lineCount → rest = []) := by
  obtain ⟨before, piece, behind, htext, hpiece, -, hlength, -, -, hmore, hend⟩ := d.exists_piece h
  have hdrop : d.text.drop (d.lineStart n) = piece ++ behind := by
    rw [htext, ← hlength, List.append_assoc, List.drop_left]
  rw [hdrop]
  by_cases hnext : n + 1 < d.lineCount
  · obtain ⟨rest, rfl⟩ := hmore hnext
    rw [closedLine_of_lt hpiece hnext]
    refine ⟨rest, by rw [List.append_assoc, List.singleton_append], fun _ => ?_,
      fun hlast => absurd hnext hlast⟩
    rw [d.lineStart_succ hpiece, List.length_append, List.length_singleton, Nat.add_assoc]
  · rw [closedLine_of_last hpiece hnext]
    exact ⟨behind, rfl, fun hmore => absurd hmore hnext, hend⟩

/-- The text before a line is the lines before it with their ends. -/
theorem take_lineStart {d : Document} {n : Nat} (h : n ≤ d.lastLine) :
    d.text.take (d.lineStart n) = (List.range n).flatMap d.closedLine := by
  induction n with
  | zero => rw [lineStart_zero, List.take_zero, List.range_zero, List.flatMap_nil]
  | succ n ih =>
    obtain ⟨rest, hdrop, hstart, -⟩ := d.exists_closedLine (Nat.le_of_lt h)
    have hnext : n + 1 < d.lineCount := Nat.lt_of_le_of_lt h d.lastLine_lt_lineCount
    rw [hstart hnext, List.take_add, hdrop, List.take_left, ih (Nat.le_of_lt h), List.range_succ,
      List.flatMap_append, List.flatMap_singleton]

/-- All lines with their ends are the text. -/
theorem flatMap_closedLine (d : Document) :
    (List.range d.lineCount).flatMap d.closedLine = d.text := by
  have hlast : ¬ d.lastLine + 1 < d.lineCount := Nat.not_lt.2 (Nat.le_of_eq d.lineCount_eq_succ)
  obtain ⟨rest, hdrop, -, hend⟩ := d.exists_closedLine (Nat.le_refl d.lastLine)
  rw [hend hlast, List.append_nil] at hdrop
  rw [lineCount_eq_succ, List.range_succ, List.flatMap_append, List.flatMap_singleton,
    ← take_lineStart (Nat.le_refl _), ← hdrop, List.take_append_drop]

theorem offsetAt_lineStart {d : Document} {n : Nat} (h : n ≤ d.lastLine) :
    d.offsetAt ⟨n, 0⟩ = Utf8.size (d.text.take (d.lineStart n)) := by
  rw [offsetAt, indexAt_lineStart h]

/-- So many bytes stand before a line as the lines before it have, with their ends. -/
theorem offsetAt_line {d : Document} {n : Nat} (h : n ≤ d.lastLine) :
    d.offsetAt ⟨n, 0⟩ = Text.total ((List.range n).map fun k => Utf8.size (d.closedLine k)) := by
  rw [offsetAt_lineStart h, take_lineStart h, Utf8.size_flatMap]

/-- The entries of the index are the offsets of the lines. -/
theorem lineStarts_eq (t : Text) :
    (ByteIndex.ofText t).lineStarts =
      (List.range (Document.mk t).lineCount).map fun n => (Document.mk t).offsetAt ⟨n, 0⟩ := by
  refine List.ext_getElem? fun n => ?_
  by_cases hn : n < (Document.mk t).lineCount
  · have hle : n ≤ (Document.mk t).lastLine := Nat.le_sub_one_of_lt hn
    obtain ⟨before, piece, behind, htext, -, -, hlength, hcount, hclosed, -⟩ :=
      (Document.mk t).exists_piece hle
    have hentry := ByteIndex.lineStarts_of_closed (htext.trans (List.append_assoc _ _ _)) hclosed
    have hbefore : (Document.mk t).text.take ((Document.mk t).lineStart n) = before := by
      rw [htext, ← hlength, List.append_assoc, List.take_left]
    rw [hcount] at hentry
    rw [List.getElem?_map, List.getElem?_range hn, Option.map_some, offsetAt_lineStart hle,
      hbefore]
    exact hentry
  · have hbehind : (Document.mk t).lineCount ≤ n := Nat.le_of_not_lt hn
    rw [List.getElem?_eq_none (by rwa [ByteIndex.length_lineStarts]),
      List.getElem?_eq_none (by rwa [List.length_map, List.length_range])]

/-- The lines with their ends are the text: there is one line more than there are line feeds,
no line holds one, each line but the last ends in a line feed or a carriage return and a line
feed, and no carriage return is left in front of a line feed.  So many bytes stand before a
line as the lines before it have.  The index of a text of fewer than 2^32 - 1 bytes holds just
these numbers, and finds the same lines. -/
theorem lines_partition (t : Text) (h : Utf8.size t < 2 ^ 32 - 1) :
    let d := Document.mk t
    d.lineCount = t.count '\n' + 1 ∧
    (∀ n, (d.line? n).isSome ↔ n < d.lineCount) ∧
    (∀ n content, d.line? n = some content → '\n' ∉ content ∧
      (n + 1 < d.lineCount → d.terminator n = ['\r', '\n'] ∨
        d.terminator n = ['\n'] ∧ content.getLast? ≠ some '\r') ∧
      (¬ n + 1 < d.lineCount → d.terminator n = [])) ∧
    t = (List.range d.lineCount).flatMap (fun n => (d.line? n).getD [] ++ d.terminator n) ∧
    (∀ n < d.lineCount, d.offsetAt ⟨n, 0⟩ = Text.total ((List.range n).map fun k =>
      Utf8.size ((d.line? k).getD [] ++ d.terminator k))) ∧
    (ByteIndex.ofText t).lineStarts = (List.range d.lineCount).map (fun n => d.offsetAt ⟨n, 0⟩) ∧
    (ByteIndex.ofText t).Represents d := by
  intro d
  refine ⟨d.lineCount_eq, d.isSome_line?_iff, fun n content hline => ?_,
    d.flatMap_closedLine.symm, fun n hn => offsetAt_line (Nat.le_sub_one_of_lt hn),
    lineStarts_eq t, ByteIndex.represents_ofText h⟩
  refine ⟨not_mem_of_line? hline, fun hnext => ?_, terminator_of_last⟩
  obtain ⟨piece, -, hpiece, -⟩ := d.exists_line (le_lastLine_of_line? hline)
  obtain ⟨other, hother, ⟨-, hend⟩ | ⟨-, hreturn, hend⟩⟩ := ending_of_line hpiece hnext
  · exact Or.inl hend
  · obtain rfl := Option.some.inj (hline.symm.trans hother)
    exact Or.inr ⟨hend, hreturn⟩

/-- A line with two carriage returns in front of its line feed, an empty one, and one whose
carriage return ends the text. -/
theorem lines_partition_returns :
    let t : Text := "a\r\r\n\nü\r"
    let d := Document.mk t
    Utf8.size t < 2 ^ 32 - 1 ∧ d.lineCount = 3 ∧
      (d.line? 0 = some "a\r".toList ∧ 0 + 1 < d.lineCount ∧ '\n' ∉ "a\r".toList ∧
        d.terminator 0 = ['\r', '\n']) ∧
      (d.line? 2 = some "ü\r".toList ∧ ¬ 2 + 1 < d.lineCount ∧ d.terminator 2 = []) ∧
      (2 < d.lineCount ∧ d.offsetAt ⟨2, 0⟩ = 5) ∧
      (ByteIndex.ofText t).lineStarts = [0, 4, 5] := by
  intro t d
  have hsize : Utf8.size t < 2 ^ 32 - 1 := by decide +kernel
  obtain ⟨hcount, -, hlines, -, hoffsets, hstarts, -⟩ := lines_partition t hsize
  have hthree : d.lineCount = 3 := hcount.trans (by decide +kernel)
  have hfirst : d.line? 0 = some "a\r".toList := by decide +kernel
  have hlast : d.line? 2 = some "ü\r".toList := by decide +kernel
  have hmore : 0 + 1 < d.lineCount := by rw [hthree]; decide
  have hnone : ¬ 2 + 1 < d.lineCount := by rw [hthree]; decide
  have hbound : 2 < d.lineCount := by rw [hthree]; decide
  obtain ⟨hfeed, hend, -⟩ := hlines 0 _ hfirst
  refine ⟨hsize, hthree, ⟨hfirst, hmore, hfeed, ?_⟩, ⟨hlast, hnone, (hlines 2 _ hlast).2.2 hnone⟩,
    ⟨hbound, (hoffsets 2 hbound).trans (by decide +kernel)⟩, hstarts.trans (by decide +kernel)⟩
  rcases hend hmore with hreturn | ⟨-, hno⟩
  · exact hreturn
  · exact absurd (by decide +kernel) hno

end Document

end FishCheck
