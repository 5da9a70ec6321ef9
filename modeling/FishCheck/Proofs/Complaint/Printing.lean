import FishCheck.Proofs.Complaint.Lines

/-!
# Printing complaints and reading them again

The checker prints errors and other lines in any order, closes each with a line feed or
with a carriage return and a line feed, and may leave the last one open.  The format
escapes nothing, so this module says which errors survive being printed: the file must
not be cut before its end, and a message may end in a carriage return only where one more
stands behind it.  What is read from any text is printed so that it can be read again.

Main results:

- Theorem `ofLine_concat_return`: a carriage return makes no error of a line without one.
- Theorem `readAll_write`: the errors of printed lines are read back in order.
- Theorem `printable_of_mem_readAll`: what was read once can be printed.
- Theorem `printing_read_back`: both directions of the round trip.
-/

namespace FishCheck

namespace Complaint

/-! ## Printed lines -/

/-- What closes a line. -/
inductive Ending
  | feed
  | returnFeed
deriving DecidableEq, Repr

/-- The characters that close a line. -/
def Ending.toText : Ending → Text
  | .feed => "\n"
  | .returnFeed => "\r\n"

/-- What an ending, if there is one, leaves on the line in front of its line feed. -/
def Ending.onLine : Option Ending → Text
  | some .returnFeed => "\r"
  | _ => []

/-- A line that the checker prints. -/
inductive Line
  | error (complaint : Complaint)
  /-- A line that no error is read from. -/
  | noise (text : Text)
deriving DecidableEq, Repr

namespace Line

/-- The line as it is printed, without what closes it. -/
def toText : Line → Text
  | error c => c.toLine
  | noise text => text

/-- The error that a line holds. -/
def complaint? : Line → Option Complaint
  | error c => some c
  | noise _ => none

end Line

/-- An error that is cut where its file ends when it is printed. -/
structure Printable (c : Complaint) : Prop where
  file_ne_nil : c.file ≠ []
  feed_not_mem_file : '\n' ∉ c.file
  unmarked : Unmarked c.file
  one_le_line : 1 ≤ c.line
  line_lt : c.line < 2 ^ 32
  feed_not_mem_message : '\n' ∉ c.message

/-- What may stand in front of an ending, or at the end of the text: an error whose message
ends in a carriage return only if another one follows, or a line from which nothing is read. -/
def Line.Fits (ending : Option Ending) : Line → Prop
  | error c => Printable c ∧ (c.message.getLast? = some '\r' → ending = some .returnFeed)
  | noise text => '\n' ∉ text ∧ readAll text = []

/-- Closed lines in order, and a last line that nothing closes, if there is one. -/
def write (lines : List (Line × Ending)) (last? : Option Line) : Text :=
  lines.flatMap (fun l => l.1.toText ++ l.2.toText) ++ (last?.map Line.toText).getD []

/-- Errors, one to a line. -/
def printAll (cs : List Complaint) : Text :=
  write (cs.map fun c => (Line.error c, Ending.returnFeed)) none

/-! ## A carriage return behind a line -/

/-- A marker does not reach into a carriage return at the end of its line. -/
theorem marked_concat_return_iff {line file digits rest : Text} :
    Marked (line ++ ['\r']) file digits rest ↔
      ∃ rest', rest = rest' ++ ['\r'] ∧ Marked line file digits rest' := by
  constructor
  · rintro ⟨hfile, hdigits, hdecimal, hline⟩
    rcases List.eq_nil_or_concat rest with rfl | ⟨rest', c, rfl⟩
    · -- the marker would end the line, and its last character is a space
      have hlast := congrArg List.getLast? hline
      simp [closing] at hlast
    · have hsplit : line ++ ['\r'] =
          (file ++ (opening ++ digits ++ closing ++ rest')) ++ [c] := by
        rw [hline, List.concat_eq_append]
        simp only [List.append_assoc]
      obtain ⟨hfront, hlast⟩ := List.append_inj' hsplit rfl
      obtain rfl : '\r' = c := (List.cons.inj hlast).1
      exact ⟨rest', List.concat_eq_append, hfile, hdigits, hdecimal, hfront⟩
  · rintro ⟨rest', rfl, hfile, hdigits, hdecimal, rfl⟩
    exact ⟨hfile, hdigits, hdecimal, by simp only [List.append_assoc]⟩

/-- A carriage return behind a line leaves its first marker where it is. -/
theorem firstMarked_of_concat_return {line file digits rest : Text}
    (h : FirstMarked (line ++ ['\r']) file digits rest) :
    ∃ rest', FirstMarked line file digits rest' := by
  obtain ⟨hmarked, hleast⟩ := h
  obtain ⟨rest', -, hfront⟩ := marked_concat_return_iff.1 hmarked
  refine ⟨rest', hfront, fun file' digits' rest'' hother => ?_⟩
  exact hleast file' digits' (rest'' ++ ['\r'])
    (marked_concat_return_iff.2 ⟨rest'', rfl, hother⟩)

/-- A carriage return makes no error of a line without one. -/
theorem ofLine_concat_return {line : Text} (h : ofLine? line = none) :
    ofLine? (line ++ ['\r']) = none := by
  rw [Option.eq_none_iff_forall_ne_some]
  intro c hread
  obtain ⟨digits, rest, hfirst, hascii, hvalue, hpos, hlt, -⟩ :=
    (ofLine_eq_some_iff _ c).1 hread
  obtain ⟨rest', hfirst'⟩ := firstMarked_of_concat_return hfirst
  have hreports : Reports line ⟨c.file, c.line, Text.dropReturn rest'⟩ :=
    ⟨digits, rest', hfirst', hascii, hvalue, hpos, hlt,
      (Text.dropReturn_eq_iff rest' (Text.dropReturn rest')).1 rfl⟩
  rw [(ofLine_eq_some_iff line _).2 hreports] at h
  cases h

/-! ## Reading printed lines -/

/-- A text without a line feed is read as one line. -/
theorem readAll_of_line {line : Text} (h : '\n' ∉ line) :
    readAll line = (ofLine? line).toList := by
  rw [readAll, Text.pieces_of_line h]
  cases hread : ofLine? line <;> simp [hread]

/-- A line that fits is one line. -/
theorem Line.Fits.feed_not_mem {ending : Option Ending} {l : Line} (h : l.Fits ending) :
    '\n' ∉ l.toText := by
  cases l with
  | error c => exact feed_not_mem_toLine h.1.feed_not_mem_file h.1.feed_not_mem_message
  | noise text => exact h.1

/-- What an ending leaves on its line is no line feed. -/
theorem Ending.feed_not_mem_onLine (ending : Option Ending) : '\n' ∉ onLine ending := by
  rcases ending with _ | _ | _ <;> decide

/-- A line is read for what it holds, together with what its ending leaves on it. -/
theorem Line.Fits.read_back {ending : Option Ending} {l : Line} (h : l.Fits ending) :
    ofLine? (l.toText ++ Ending.onLine ending) = l.complaint? := by
  cases l with
  | error c =>
    obtain ⟨hprintable, hreturn⟩ := h
    have hdrop : Text.dropReturn (c.message ++ Ending.onLine ending) = c.message := by
      rw [Text.dropReturn_eq_iff]
      match ending, hreturn with
      | some .returnFeed, _ => exact Or.inl rfl
      | some .feed, hreturn => exact Or.inr ⟨List.append_nil _, fun hlast => nomatch hreturn hlast⟩
      | none, hreturn => exact Or.inr ⟨List.append_nil _, fun hlast => nomatch hreturn hlast⟩
    have hline : c.toLine ++ Ending.onLine ending = c.file ++
        (opening ++ Text.decimal c.line ++ closing ++ (c.message ++ Ending.onLine ending)) := by
      simp only [toLine, List.append_assoc]
    rw [toText, hline]
    exact ofLine_of_dropReturn hprintable.file_ne_nil hprintable.unmarked
      hprintable.one_le_line hprintable.line_lt hdrop
  | noise text =>
    obtain ⟨hfeed, hread⟩ := h
    have hnone : ofLine? text = none := by
      rw [readAll_of_line hfeed] at hread
      exact Option.toList_eq_nil_iff.1 hread
    rcases ending with _ | _ | _
    · simpa [toText, complaint?, Ending.onLine] using hnone
    · simpa [toText, complaint?, Ending.onLine] using hnone
    · exact ofLine_concat_return hnone

/-- The pieces of printed lines are the lines, each with what its ending leaves on it, and
the open line at the end. -/
theorem pieces_write {lines : List (Line × Ending)} {last? : Option Line}
    (hlines : ∀ l ∈ lines, l.1.Fits (some l.2)) (hlast : ∀ l ∈ last?, l.Fits none) :
    Text.pieces (write lines last?) =
      lines.map (fun l => l.1.toText ++ Ending.onLine (some l.2)) ++
        [(last?.map Line.toText).getD []] := by
  induction lines with
  | nil =>
    refine Text.pieces_of_line ?_
    cases last? with
    | none => exact List.not_mem_nil
    | some l => exact (hlast l rfl).feed_not_mem
  | cons l ls ih =>
    have hfirst := hlines l List.mem_cons_self
    have hline : '\n' ∉ l.1.toText ++ Ending.onLine (some l.2) := by
      rw [List.mem_append, not_or]
      exact ⟨hfirst.feed_not_mem, Ending.feed_not_mem_onLine _⟩
    have hwrite : write (l :: ls) last? =
        (l.1.toText ++ Ending.onLine (some l.2)) ++ '\n' :: write ls last? := by
      obtain ⟨line, ending⟩ := l
      cases ending <;> simp [write, Ending.toText, Ending.onLine]
    rw [hwrite, Text.pieces_append_feed hline,
      ih fun m hm => hlines m (List.mem_cons_of_mem l hm)]
    rfl

/-- The errors of printed lines are read back in order. -/
theorem readAll_write {lines : List (Line × Ending)} {last? : Option Line}
    (hlines : ∀ l ∈ lines, l.1.Fits (some l.2)) (hlast : ∀ l ∈ last?, l.Fits none) :
    readAll (write lines last?) =
      (lines.map (·.1) ++ last?.toList).filterMap Line.complaint? := by
  have hopen : [(last?.map Line.toText).getD []].filterMap ofLine? =
      last?.toList.filterMap Line.complaint? := by
    cases last? with
    | none => rfl
    | some l =>
      have hread : ofLine? l.toText = l.complaint? := by
        simpa [Ending.onLine] using (hlast l rfl).read_back
      simp [List.filterMap_cons, hread]
  rw [readAll, pieces_write hlines hlast, List.filterMap_append, List.filterMap_append, hopen,
    List.filterMap_map, List.filterMap_map]
  congr 1
  exact List.filterMap_congr fun l hl => (hlines l hl).read_back

/-! ## Printing what was read -/

/-- The file that a line is cut at has no marker of its own. -/
theorem unmarked_of_firstMarked {line file digits rest : Text}
    (h : FirstMarked line file digits rest) : Unmarked file := by
  obtain ⟨⟨-, -, -, hline⟩, hleast⟩ := h
  intro front digits' rest' hmarked
  obtain ⟨behind, hbehind⟩ : ∃ behind, opening ++ digits ++ closing ++ rest = ' ' :: behind :=
    ⟨_, rfl⟩
  have hearlier : Marked line front digits' (rest' ++ behind) := by
    refine ⟨hmarked.file_ne_nil, hmarked.digits_ne_nil, hmarked.decimal, ?_⟩
    calc line
      _ = (file ++ [' ']) ++ behind := by rw [hline, hbehind, List.append_assoc]; rfl
      _ = front ++ (opening ++ digits' ++ closing ++ (rest' ++ behind)) := by
        rw [hmarked.line_eq]
        simp only [List.append_assoc]
  -- the earlier marker would need more room than the one space behind the file
  have hle := hleast front digits' (rest' ++ behind) hearlier
  have hlength := congrArg List.length hmarked.line_eq
  have hopening : opening.length = 7 := rfl
  simp only [List.length_append, List.length_singleton, hopening] at hlength
  omega

/-- What was read once can be printed. -/
theorem printable_of_mem_readAll {output : Text} {c : Complaint} (h : c ∈ readAll output) :
    Printable c := by
  rw [readAll_eq, List.mem_filterMap] at h
  obtain ⟨line, hpiece, hread⟩ := h
  obtain ⟨digits, rest, hfirst, -, -, hpos, hlt, hmessage⟩ := (ofLine_eq_some_iff line c).1 hread
  have hfeed : '\n' ∉ line := Text.not_mem_of_mem_pieces hpiece
  rw [hfirst.1.line_eq] at hfeed
  simp only [List.mem_append, not_or] at hfeed
  obtain ⟨hfile, -, hrest⟩ := hfeed
  refine ⟨hfirst.1.file_ne_nil, hfile, unmarked_of_firstMarked hfirst, hpos, hlt, ?_⟩
  rcases hmessage with rfl | ⟨rfl, -⟩
  · exact fun hmem => hrest (List.mem_append_left _ hmem)
  · exact hrest

/-- Errors and other lines, closed in any way and the last one perhaps not at all, are read
back: the errors in order and nothing else.  What is read from any text is printed so that
it is read again. -/
theorem printing_read_back :
    (∀ (lines : List (Line × Ending)) (last? : Option Line),
      (∀ l ∈ lines, l.1.Fits (some l.2)) → (∀ l ∈ last?, l.Fits none) →
      readAll (write lines last?) =
        (lines.map (·.1) ++ last?.toList).filterMap Line.complaint?) ∧
    ∀ output : Text, readAll (printAll (readAll output)) = readAll output := by
  refine ⟨fun lines last? hlines hlast => readAll_write hlines hlast, fun output => ?_⟩
  have hfits : ∀ l ∈ (readAll output).map fun c => (Line.error c, Ending.returnFeed),
      l.1.Fits (some l.2) := by
    intro l hl
    obtain ⟨c, hc, rfl⟩ := List.mem_map.1 hl
    exact ⟨printable_of_mem_readAll hc, fun _ => rfl⟩
  have hnone : ∀ l ∈ (none : Option Line), l.Fits none := fun l hl => nomatch hl
  rw [printAll, readAll_write hfits hnone, Option.toList_none, List.append_nil,
    List.filterMap_map, List.filterMap_map]
  exact List.filterMap_some

/-- Lines with a file that a marker starts and a space ends, a message that holds a marker
and ends in a carriage return, a line that its first number drops, and an open last line. -/
theorem printing_read_back_mixed :
    let first : Complaint := ⟨" (line 3): a ", 7, "see b (line 2): c\r"⟩
    let last : Complaint := ⟨"~/b", 4294967295, []⟩
    let lines : List (Line × Ending) :=
      [(.error first, .returnFeed), (.noise "a (line 0): b (line 1): c", .returnFeed),
        (.noise "\r", .feed)]
    (∀ l ∈ lines, l.1.Fits (some l.2)) ∧ (∀ l ∈ some (Line.error last), l.Fits none) ∧
      readAll (write lines (some (.error last))) = [first, last] := by
  intro first last lines
  have hfirst : (Line.error first).Fits (some .returnFeed) :=
    ⟨⟨by decide, by decide, unmarked_of_firstMarker (by decide +kernel), by decide, by decide,
      by decide⟩, fun _ => rfl⟩
  have hlast : (Line.error last).Fits none :=
    ⟨⟨by decide, by decide, unmarked_of_firstMarker (by decide +kernel), by decide, by decide,
      by decide⟩, by decide⟩
  have hlines : ∀ l ∈ lines, l.1.Fits (some l.2) := by
    simp only [lines, List.forall_mem_cons, List.not_mem_nil, false_implies, implies_true, and_true]
    exact ⟨hfirst, ⟨by decide, by decide +kernel⟩, ⟨by decide, by decide +kernel⟩⟩
  have hopen : ∀ l ∈ some (Line.error last), l.Fits none := by
    rintro l ⟨⟩
    exact hlast
  exact ⟨hlines, hopen, printing_read_back.1 lines (some (.error last)) hlines hopen⟩

end Complaint

end FishCheck
