import FishCheck.Proofs.Document.Places
import Mathlib.Algebra.Group.Nat.Defs

/-!
# Documents indexed by bytes

A document can be searched without looking at its characters twice: a table holds the
byte offset at which each line starts, lines and characters are counted in words of 32
bits, and a stretch of text is cut out between two byte offsets.  Every step of that
search may fail: an index may be past the end of the table, a count may not fit its word,
and an offset may be inside a character, past the end of the text or behind the other one.
This module writes the search down with all these checks and shows that for texts of fewer
than 2^32 - 1 bytes none of them ever fires, whatever positions are asked for, and that
the search agrees with the plain definitions of `Document`.

Main results:

- Theorem `line_eq`: looking a line up never fails and finds the line.
- Theorem `walk_eq`: counting code units on a line never overflows.
- Theorem `offsetAt_eq`: the offset of a position is the one that `Document` gives.
- Theorem `represents_ofText`: no search fails, and each finds what `Document` says.
- Theorem `slice_never_fails`: offsets are ordered places of the text, and slicing
  between them never fails.
-/

namespace FishCheck

namespace Text

/-- The offsets in bytes at which a text can be cut: no character spans them. -/
def IsBoundary (t : Text) (offset : Nat) : Prop :=
  ∃ front back, t = front ++ back ∧ offset = Utf8.size front

/-- Cuts a text at an offset in bytes, which has to be a boundary. -/
def cutAt? : Text → Nat → Option (Text × Text)
  | [], offset => if offset = 0 then some ([], []) else none
  | c :: cs, offset =>
    if offset = 0 then some ([], c :: cs)
    else if offset < Utf8.sizeChar c then none
    else (cutAt? cs (offset - Utf8.sizeChar c)).map fun p => (c :: p.1, p.2)

theorem cutAt_size (s t : Text) : cutAt? (s ++ t) (Utf8.size s) = some (s, t) := by
  induction s with
  | nil => cases t <;> rfl
  | cons c cs ih =>
    have hpos := Utf8.sizeChar_pos c
    have hzero : ¬ Utf8.sizeChar c + Utf8.size cs = 0 := by omega
    have hfits : ¬ Utf8.sizeChar c + Utf8.size cs < Utf8.sizeChar c := by omega
    rw [Utf8.size, List.cons_append, cutAt?, if_neg hzero, if_neg hfits, Nat.add_sub_cancel_left,
      ih, Option.map_some]

/-- The first characters of a text end at a boundary. -/
theorem isBoundary_take (t : Text) (n : Nat) : t.IsBoundary (Utf8.size (t.take n)) :=
  ⟨t.take n, t.drop n, (List.take_append_drop n t).symm, rfl⟩

/-- A text has no more code units than bytes. -/
theorem utf16Length_le_size (t : Text) : Utf16.length t ≤ Utf8.size t := by
  induction t with
  | nil => exact Nat.le_refl 0
  | cons c cs ih =>
    have hc : Utf16.units c ≤ Utf8.sizeChar c := by
      unfold Utf16.units Utf8.sizeChar
      grind
    rw [Utf16.length, Utf8.size]
    omega

/-- A text has no more characters than bytes. -/
theorem length_le_size (t : Text) : t.length ≤ Utf8.size t := by
  induction t with
  | nil => exact Nat.le_refl 0
  | cons c cs ih =>
    have hpos := Utf8.sizeChar_pos c
    rw [List.length_cons, Utf8.size]
    omega

end Text

/-! ## Words -/

/-- A place in a document as two words name it. -/
structure Cursor where
  line : UInt32
  character : UInt32
deriving DecidableEq, Repr

/-- A stretch of a document between two cursors. -/
structure Selection where
  start : Cursor
  stop : Cursor
deriving DecidableEq, Repr

/-- The position that a cursor names. -/
def Cursor.position (p : Cursor) : Position := ⟨p.line.toNat, p.character.toNat⟩

/-- The range that a selection names. -/
def Selection.range (r : Selection) : Range := ⟨r.start.position, r.stop.position⟩

/-- A document's text with the byte offset of the first character of each line. -/
structure ByteIndex where
  text : Text
  lineStarts : List Nat
deriving DecidableEq, Repr

namespace ByteIndex

/-- What a step of a search can fail with. -/
inductive Fault
  /-- An index past the end of the table. -/
  | index
  /-- A result that its word cannot hold. -/
  | overflow
  /-- A cut out of order, past the end of the text or inside a character. -/
  | boundary
deriving DecidableEq, Repr

/-- A sum of words. -/
def add (a b : UInt32) : Except Fault UInt32 :=
  if a.toNat + b.toNat < 2 ^ 32 then .ok (a + b) else .error .overflow

/-- An entry of a table. -/
def entry (table : List Nat) (n : UInt32) : Except Fault Nat :=
  match table[n.toNat]? with
  | some offset => .ok offset
  | none => .error .index

/-- The stretch of a text between two offsets. -/
def cut (t : Text) (start stop : Nat) : Except Fault Text :=
  if stop < start then .error .boundary
  else match (Text.cutAt? t stop).bind fun p => Text.cutAt? p.1 start with
    | some (_, stretch) => .ok stretch
    | none => .error .boundary

/-- The word of a count; the high bits of a count that is too large are lost. -/
def word (n : Nat) : UInt32 := UInt32.ofNat n

/-! ## Searching -/

/-- The offsets behind the line feeds of a text that starts at an offset. -/
def feedEnds (offset : Nat) : Text → List Nat
  | [] => []
  | c :: cs =>
    if c = '\n' then (offset + 1) :: feedEnds (offset + 1) cs
    else feedEnds (offset + Utf8.sizeChar c) cs

/-- Indexes a text. -/
def ofText (t : Text) : ByteIndex := ⟨t, 0 :: feedEnds 0 t⟩

/-- The number of lines. -/
def lineCount (d : ByteIndex) : UInt32 := word d.lineStarts.length

/-- The number of the last line. -/
def lastLine (d : ByteIndex) : UInt32 := if d.lineCount = 0 then 0 else d.lineCount - 1

/-- The content of a line without its terminator; there is none past the last line. -/
def line? (d : ByteIndex) (n : UInt32) : Except Fault (Option Text) :=
  match d.lineStarts[n.toNat]? with
  | none => .ok none
  | some start =>
    match d.lineStarts[n.toNat + 1]? with
    | some next =>
      if next = 0 then .error .overflow
      else (cut d.text start (next - 1)).map fun piece => some (Text.dropReturn piece)
    | none => (cut d.text start (Utf8.size d.text)).map some

/-- The length of a line in UTF-16 code units, zero past the end. -/
def lineLength (d : ByteIndex) (n : UInt32) : Except Fault UInt32 :=
  (d.line? n).map fun line? => (line?.map fun t => word (Utf16.encode t).length).getD 0

/-- Moves a cursor into the document. -/
def clamp (d : ByteIndex) (p : Cursor) : Except Fault Cursor :=
  if d.lastLine < p.line then
    (d.lineLength d.lastLine).map fun length => ⟨d.lastLine, length⟩
  else (d.lineLength p.line).map fun length => ⟨p.line, min p.character length⟩

/-- Moves both ends of a selection into the document; one that then runs backwards
collapses onto its start. -/
def clampSelection (d : ByteIndex) (r : Selection) : Except Fault Selection := do
  let start ← d.clamp r.start
  let stop ← d.clamp r.stop
  if stop.line < start.line ∨ (stop.line = start.line ∧ stop.character < start.character) then
    .ok ⟨start, start⟩
  else .ok ⟨start, stop⟩

/-- The selection of the whole document. -/
def fullSelection (d : ByteIndex) : Except Fault Selection :=
  (d.lineLength d.lastLine).map fun length => ⟨⟨0, 0⟩, ⟨d.lastLine, length⟩⟩

/-- Goes along a line, from an offset on it and the code units before that, until the
code units reach a goal; gives the offset reached. -/
def walk (goal : UInt32) : Text → Nat → UInt32 → Except Fault Nat
  | [], offset, _ => .ok offset
  | c :: cs, offset, units =>
    if goal ≤ units then .ok offset
    else do
      let units ← add units (word (Utf16.units c))
      walk goal cs (offset + Utf8.sizeChar c) units

/-- The offset of a cursor, moved into the document first. -/
def offsetAt (d : ByteIndex) (p : Cursor) : Except Fault Nat := do
  let p ← d.clamp p
  let start ← entry d.lineStarts p.line
  let line? ← d.line? p.line
  let onLine ← walk p.character (line?.getD []) 0 0
  .ok (start + onLine)

/-- The text of a selection, moved into the document first. -/
def slice (d : ByteIndex) (r : Selection) : Except Fault Text := do
  let r ← d.clampSelection r
  let start ← d.offsetAt r.start
  let stop ← d.offsetAt r.stop
  cut d.text start stop

/-! ## Checked steps -/

theorem ok_bind {α β : Type} (a : α) (f : α → Except Fault β) : (Except.ok a >>= f) = f a := rfl

theorem add_of_lt {a b : UInt32} (h : a.toNat + b.toNat < 2 ^ 32) :
    add a b = .ok (a + b) ∧ (a + b).toNat = a.toNat + b.toNat := by
  refine ⟨if_pos h, ?_⟩
  rw [UInt32.toNat_add, Nat.mod_eq_of_lt h]

theorem toNat_word {n : Nat} (h : n < 2 ^ 32) : (word n).toNat = n :=
  UInt32.toNat_ofNat_of_lt' h

theorem toNat_min (a b : UInt32) : (min a b).toNat = min a.toNat b.toNat := by
  change (if a ≤ b then a else b).toNat = _
  split <;> rename_i hle <;> rw [UInt32.le_iff_toNat_le] at hle <;> omega

/-- A stretch can be cut out between the ends of what stands before it and of itself. -/
theorem cut_middle (s t u : Text) :
    cut (s ++ t ++ u) (Utf8.size s) (Utf8.size (s ++ t)) = .ok t := by
  have horder : ¬ Utf8.size (s ++ t) < Utf8.size s := by
    rw [Utf8.size_append]
    omega
  rw [cut, if_neg horder, Text.cutAt_size, Option.bind_some, Text.cutAt_size]

/-- No stretch ends inside a character. -/
example : cut "aü" 0 2 = .error .boundary := by decide +kernel

/-- The characters between two of them can be cut out at the boundaries before these. -/
theorem cut_take (t : Text) {i j : Nat} (h : i ≤ j) :
    cut t (Utf8.size (t.take i)) (Utf8.size (t.take j)) = .ok ((t.take j).drop i) := by
  have hmiddle := cut_middle (t.take i) ((t.take j).drop i) (t.drop j)
  rwa [t.take_append_drop_take h, List.take_append_drop] at hmiddle

/-! ## The table of lines -/

theorem length_feedEnds (offset : Nat) (t : Text) :
    (feedEnds offset t).length = t.count '\n' := by
  induction t generalizing offset with
  | nil => rfl
  | cons c cs ih =>
    by_cases hc : c = '\n' <;> simp [feedEnds, hc, ih]

theorem feedEnds_append (offset : Nat) (s t : Text) :
    feedEnds offset (s ++ t) = feedEnds offset s ++ feedEnds (offset + Utf8.size s) t := by
  induction s generalizing offset with
  | nil => rfl
  | cons c cs ih =>
    by_cases hc : c = '\n'
    · subst hc
      have hsize : Utf8.sizeChar '\n' = 1 := rfl
      simp [feedEnds, ih, Utf8.size, hsize, Nat.add_assoc]
    · simp [feedEnds, ih, Utf8.size, hc, Nat.add_assoc]

/-- There is an entry for each line. -/
theorem length_lineStarts (t : Text) :
    (ofText t).lineStarts.length = (Document.mk t).lineCount := by
  rw [Document.lineCount_eq, ofText, List.length_cons, length_feedEnds]

/-- The entry of a line is the size of the closed pieces before it. -/
theorem lineStarts_of_closed {t before rest : Text} (h : t = before ++ rest)
    (hclosed : Text.lastPiece before = []) :
    (ofText t).lineStarts[before.count '\n']? = some (Utf8.size before) := by
  subst h
  rw [ofText, feedEnds_append]
  cases before using List.reverseRecOn with
  | nil => rfl
  | append_singleton s c =>
    have hc : c = '\n' := by
      rw [Text.lastPiece_concat] at hclosed
      by_contra hne
      simp [hne] at hclosed
    subst hc
    have hindex : (s ++ ['\n']).count '\n' = (feedEnds 0 s).length + 1 := by
      rw [length_feedEnds, List.count_append]
      rfl
    have hsize : Utf8.sizeChar '\n' = 1 := rfl
    rw [hindex, List.getElem?_cons_succ, feedEnds_append, List.append_assoc,
      List.getElem?_append_right (Nat.le_refl _), Nat.sub_self]
    simp [feedEnds, Utf8.size_append, Utf8.size, hsize]

/-- A line with a line feed behind it is cut out up to that, and loses a carriage return. -/
theorem line_of_feed {t before piece rest : Text} {n : UInt32}
    (htext : t = before ++ piece ++ '\n' :: rest) (hfeed : '\n' ∉ piece)
    (hcount : before.count '\n' = n.toNat) (hclosed : Text.lastPiece before = []) :
    (ofText t).line? n = .ok (some (Text.dropReturn piece)) := by
  have hstart : (ofText t).lineStarts[n.toNat]? = some (Utf8.size before) := by
    rw [← hcount]
    exact lineStarts_of_closed (htext.trans (List.append_assoc _ _ _)) hclosed
  have hnext : (ofText t).lineStarts[n.toNat + 1]? = some (Utf8.size (before ++ piece) + 1) := by
    have hsplit : t = ((before ++ piece) ++ ['\n']) ++ rest := by
      rw [htext, List.append_assoc _ ['\n'], List.singleton_append]
    have hcount_next : ((before ++ piece) ++ ['\n']).count '\n' = n.toNat + 1 := by
      rw [List.count_append, List.count_append, hcount, List.count_eq_zero.2 hfeed]
      rfl
    have hentry := lineStarts_of_closed hsplit (by rw [Text.lastPiece_concat, if_pos rfl])
    rwa [hcount_next, Utf8.size_append] at hentry
  have hcut : cut (ofText t).text (Utf8.size before) (Utf8.size (before ++ piece)) =
      .ok piece := by
    change cut t _ _ = _
    conv_lhs => rw [htext]
    exact cut_middle before piece _
  simp only [line?, hstart, hnext, if_neg (Nat.succ_ne_zero _), Nat.add_sub_cancel, hcut]
  rfl

/-- The last line is cut out up to the end of the text. -/
theorem line_of_end {t before piece : Text} {n : UInt32} (htext : t = before ++ piece)
    (hfeed : '\n' ∉ piece) (hcount : before.count '\n' = n.toNat)
    (hclosed : Text.lastPiece before = []) : (ofText t).line? n = .ok (some piece) := by
  have hstart : (ofText t).lineStarts[n.toNat]? = some (Utf8.size before) := by
    rw [← hcount]
    exact lineStarts_of_closed htext hclosed
  have hnext : (ofText t).lineStarts[n.toNat + 1]? = none := by
    rw [List.getElem?_eq_none_iff, ofText, List.length_cons, length_feedEnds, htext,
      List.count_append, hcount, List.count_eq_zero.2 hfeed]
  have hcut : cut (ofText t).text (Utf8.size before) (Utf8.size (ofText t).text) =
      .ok piece := by
    have hmiddle := cut_middle before piece []
    rw [List.append_nil, ← htext] at hmiddle
    exact hmiddle
  simp only [line?, hstart, hnext, hcut]
  rfl

/-- There is no line behind the last one. -/
theorem pieces_of_lastLine_lt {t : Text} {n : Nat} (h : ¬ n ≤ (Document.mk t).lastLine) :
    (Document.mk t).pieces[n]? = none := by
  rw [List.getElem?_eq_none_iff]
  change (Document.mk t).lineCount ≤ n
  rw [Document.lineCount_eq_succ]
  exact Nat.lt_of_not_le h

/-- Looking a line up never fails and finds the line. -/
theorem line_eq (t : Text) (n : UInt32) :
    (ofText t).line? n = .ok ((Document.mk t).line? n.toNat) := by
  by_cases hn : n.toNat ≤ (Document.mk t).lastLine
  · obtain ⟨before, piece, behind, htext, hpiece, hfeed, -, hcount, hclosed, hmore, hend⟩ :=
      (Document.mk t).exists_piece hn
    change t = before ++ piece ++ behind at htext
    by_cases hlast : n.toNat + 1 < (Document.mk t).lineCount
    · obtain ⟨rest, rfl⟩ := hmore hlast
      rw [line_of_feed htext hfeed hcount hclosed, Document.line?, hpiece, Option.map_some,
        if_pos hlast]
    · rw [hend hlast, List.append_nil] at htext
      rw [line_of_end htext hfeed hcount hclosed, Document.line?, hpiece, Option.map_some,
        if_neg hlast]
  · have hpieces := pieces_of_lastLine_lt hn
    have hnone : (ofText t).lineStarts[n.toNat]? = none := by
      rw [List.getElem?_eq_none_iff, length_lineStarts]
      exact List.getElem?_eq_none_iff.1 hpieces
    rw [line?, hnone, Document.line?, hpieces]
    rfl

/-! ## Counts that fit their words -/

/-- The content of a line has no more code units than the whole text has bytes. -/
theorem lineLength_le_size (t : Text) (n : Nat) : (Document.mk t).lineLength n ≤ Utf8.size t := by
  by_cases hn : n ≤ (Document.mk t).lastLine
  · obtain ⟨before, content, behind, htext, hline, -⟩ := (Document.mk t).exists_place hn
    have hcontent := Text.utf16Length_le_size content
    have hsize := congrArg Utf8.size htext
    rw [Utf8.size_append, Utf8.size_append] at hsize
    change Utf8.size t = _ at hsize
    rw [Document.lineLength_of_line? hline]
    omega
  · simp [Document.lineLength, Document.line?, pieces_of_lastLine_lt hn]

section Bounded

variable {t : Text} (h : Utf8.size t < 2 ^ 32 - 1)
include h

/-- The number of lines fits its word, since a text has no more line feeds than bytes. -/
theorem toNat_lineCount : (ofText t).lineCount.toNat = (Document.mk t).lineCount := by
  have hlines : (Document.mk t).lineCount ≤ Utf8.size t + 1 := by
    have hcount : t.count '\n' ≤ t.length := List.count_le_length
    have hlength := Text.length_le_size t
    rw [Document.lineCount_eq]
    change t.count '\n' + 1 ≤ Utf8.size t + 1
    omega
  rw [lineCount, length_lineStarts, toNat_word (by omega)]

theorem toNat_lastLine : (ofText t).lastLine.toNat = (Document.mk t).lastLine := by
  have hcount := toNat_lineCount h
  have hpos := (Document.mk t).lineCount_pos
  have hone : (1 : UInt32).toNat = 1 := rfl
  unfold lastLine
  split
  · rename_i hzero
    rw [hzero] at hcount
    have hnothing : (0 : UInt32).toNat = 0 := rfl
    omega
  · rw [UInt32.toNat_sub_of_le, hcount, hone, Document.lastLine]
    rw [UInt32.le_iff_toNat_le, hcount, hone]
    exact hpos

/-- The length of a line fits its word. -/
theorem lineLength_eq (n : UInt32) :
    ∃ length, (ofText t).lineLength n = .ok length ∧
      length.toNat = (Document.mk t).lineLength n.toNat := by
  have hbound := lineLength_le_size t n.toNat
  rw [lineLength, line_eq]
  refine ⟨_, rfl, ?_⟩
  unfold Document.lineLength at hbound ⊢
  cases hline : (Document.mk t).line? n.toNat with
  | none => rfl
  | some content =>
    rw [hline] at hbound
    simp only [Option.map_some, Option.getD_some, Utf16.length_encode] at hbound ⊢
    exact toNat_word (by omega)

/-- Moving a cursor into the document never fails and moves its position there. -/
theorem clamp_eq (p : Cursor) :
    ∃ q, (ofText t).clamp p = .ok q ∧ q.position = (Document.mk t).clamp p.position := by
  have hlast := toNat_lastLine h
  unfold clamp Document.clamp
  by_cases hline : (ofText t).lastLine < p.line
  · obtain ⟨length, hlength, htoNat⟩ := lineLength_eq h (ofText t).lastLine
    have hpast : (Document.mk t).lastLine < p.position.line := by
      rw [UInt32.lt_iff_toNat_lt, hlast] at hline
      exact hline
    rw [if_pos hline, if_pos hpast, hlength]
    refine ⟨_, rfl, ?_⟩
    rw [hlast] at htoNat
    rw [Cursor.position, Document.stop, hlast, htoNat]
  · obtain ⟨length, hlength, htoNat⟩ := lineLength_eq h p.line
    have hwithin : ¬ (Document.mk t).lastLine < p.position.line := by
      rw [UInt32.lt_iff_toNat_lt, hlast] at hline
      exact hline
    rw [if_neg hline, if_neg hwithin, hlength]
    refine ⟨_, rfl, ?_⟩
    rw [Cursor.position, toNat_min, htoNat]
    rfl

/-- Moving a selection into the document never fails and moves its range there. -/
theorem clampSelection_eq (r : Selection) :
    ∃ s, (ofText t).clampSelection r = .ok s ∧
      s.range = (Document.mk t).clampRange r.range := by
  obtain ⟨start, hstart, hstart_position⟩ := clamp_eq h r.start
  obtain ⟨stop, hstop, hstop_position⟩ := clamp_eq h r.stop
  have horder : (stop.line < start.line ∨
      (stop.line = start.line ∧ stop.character < start.character)) ↔
      ¬ start.position ≤ stop.position := by
    rw [Position.le_def, UInt32.lt_iff_toNat_lt, UInt32.lt_iff_toNat_lt, ← UInt32.toNat_inj]
    change _ ↔ ¬ (start.line.toNat < stop.line.toNat ∨
      (start.line.toNat = stop.line.toNat ∧ start.character.toNat ≤ stop.character.toNat))
    omega
  have hrange : (Document.mk t).clampRange r.range =
      if start.position ≤ stop.position then ⟨start.position, stop.position⟩
      else ⟨start.position, start.position⟩ := by
    rw [hstart_position, hstop_position]
    rfl
  rw [clampSelection, hstart, hstop, ok_bind, ok_bind, hrange]
  by_cases hle : start.position ≤ stop.position
  · rw [if_neg (mt horder.1 (not_not.2 hle)), if_pos hle]
    exact ⟨_, rfl, rfl⟩
  · rw [if_pos (horder.2 hle), if_neg hle]
    exact ⟨_, rfl, rfl⟩

/-- The selection of the whole document is found and has the range of the whole document. -/
theorem fullSelection_eq :
    ∃ s, (ofText t).fullSelection = .ok s ∧ s.range = (Document.mk t).fullRange := by
  have hlast := toNat_lastLine h
  obtain ⟨length, hlength, htoNat⟩ := lineLength_eq h (ofText t).lastLine
  rw [hlast] at htoNat
  rw [fullSelection, hlength]
  refine ⟨_, rfl, ?_⟩
  rw [Selection.range, Cursor.position, Cursor.position, hlast, htoNat]
  rfl

end Bounded

/-! ## Walking along a line -/

/-- Counting code units on a line never overflows when those of the whole line fit, and
ends behind as many characters as take them up. -/
theorem walk_eq (goal : UInt32) (line : Text) (offset : Nat) (units : UInt32)
    (h : units.toNat + Utf16.length line < 2 ^ 32) :
    walk goal line offset units = .ok
      (offset + Utf8.size (line.take
        (Document.charactersFor line (goal.toNat - units.toNat)))) := by
  induction line generalizing offset units with
  | nil => rfl
  | cons c cs ih =>
    rw [Utf16.length] at h
    by_cases hgoal : goal ≤ units
    · have hnone : goal.toNat - units.toNat = 0 := by
        rw [UInt32.le_iff_toNat_le] at hgoal
        omega
      rw [walk, if_pos hgoal, hnone, Document.charactersFor_zero]
      rfl
    · have hmore : goal.toNat - units.toNat ≠ 0 := by
        rw [UInt32.le_iff_toNat_le] at hgoal
        omega
      have hword : (word (Utf16.units c)).toNat = Utf16.units c :=
        toNat_word (by have htwo := Utf16.units_le_two c; omega)
      obtain ⟨hadd, hsum⟩ := add_of_lt (a := units) (b := word (Utf16.units c))
        (by rw [hword]; omega)
      rw [hword] at hsum
      have hrest : goal.toNat - (units + word (Utf16.units c)).toNat =
          goal.toNat - units.toNat - Utf16.units c := by
        rw [hsum, Nat.sub_add_eq]
      rw [walk, if_neg hgoal, hadd, ok_bind, ih _ _ (by rw [hsum]; omega), hrest,
        Document.charactersFor, if_neg hmore, List.take_succ_cons, Utf8.size, Nat.add_assoc]

section Bounded

variable {t : Text} (h : Utf8.size t < 2 ^ 32 - 1)
include h

/-- The search for the offset of a cursor never fails and finds the offset of its
position. -/
theorem offsetAt_eq (p : Cursor) :
    (ofText t).offsetAt p = .ok ((Document.mk t).offsetAt p.position) := by
  obtain ⟨q, hclamp, hposition⟩ := clamp_eq h p
  have hcontains : (Document.mk t).Contains q.position := by
    rw [hposition]
    exact (Document.mk t).contains_clamp _
  obtain ⟨before, content, behind, htext, hline, -, hlength, hcount, hclosed, -⟩ :=
    (Document.mk t).exists_place hcontains.1
  change t = before ++ content ++ behind at htext
  have hstart : (ofText t).lineStarts[q.line.toNat]? = some (Utf8.size before) := by
    change _ = q.line.toNat at hcount
    rw [← hcount]
    exact lineStarts_of_closed (htext.trans (List.append_assoc _ _ _)) hclosed
  have hfits : (0 : UInt32).toNat + Utf16.length content < 2 ^ 32 := by
    have hunits := lineLength_le_size t q.position.line
    have hzero : (0 : UInt32).toNat = 0 := rfl
    rw [Document.lineLength_of_line? hline] at hunits
    omega
  have hindex : (Document.mk t).indexAt p.position =
      before.length + Document.charactersFor content q.character.toNat := by
    rw [← Document.indexAt_clamp, ← hposition, Document.indexAt_of_contains hcontains hline,
      ← hlength]
    rfl
  have hoffset : (Document.mk t).offsetAt p.position = Utf8.size before +
      Utf8.size (content.take (Document.charactersFor content q.character.toNat)) := by
    rw [Document.offsetAt, hindex]
    change Utf8.size (t.take _) = _
    rw [htext, List.append_assoc, List.take_length_add_append, List.take_append_of_le_length
      (Document.charactersFor_le_length _ _), Utf8.size_append]
  unfold offsetAt entry
  rw [hclamp, ok_bind, hstart, ok_bind, line_eq, ok_bind,
    show (Document.mk t).line? q.line.toNat = some content from hline, Option.getD_some,
    walk_eq _ _ _ _ hfits, ok_bind, hoffset, Nat.zero_add]
  rfl

/-- Slicing never fails and gives the slice. -/
theorem slice_eq (r : Selection) :
    (ofText t).slice r = .ok ((Document.mk t).slice r.range) := by
  obtain ⟨s, hclamp, hrange⟩ := clampSelection_eq h r
  have hcontains := (Document.mk t).containsRange_clampRange r.range
  rw [← hrange] at hcontains
  have horder := (Document.mk t).indexAt_mono hcontains.2.2
  rw [slice, hclamp, ok_bind, offsetAt_eq h, ok_bind, offsetAt_eq h, ok_bind, Document.slice,
    ← hrange]
  exact cut_take t horder

end Bounded

/-! ## Documents and their indexes -/

/-- An index stands for a document: no search of the index fails, and each finds what the
document says. -/
structure Represents (index : ByteIndex) (d : Document) : Prop where
  text : index.text = d.text
  lineCount : index.lineCount.toNat = d.lineCount
  lastLine : index.lastLine.toNat = d.lastLine
  line? : ∀ n : UInt32, index.line? n = .ok (d.line? n.toNat)
  lineLength : ∀ n : UInt32, ∃ length, index.lineLength n = .ok length ∧
    length.toNat = d.lineLength n.toNat
  fullSelection : ∃ s, index.fullSelection = .ok s ∧ s.range = d.fullRange
  clamp : ∀ p : Cursor, ∃ q, index.clamp p = .ok q ∧ q.position = d.clamp p.position
  clampSelection : ∀ r : Selection, ∃ s, index.clampSelection r = .ok s ∧
    s.range = d.clampRange r.range
  offsetAt : ∀ p : Cursor, index.offsetAt p = .ok (d.offsetAt p.position)
  slice : ∀ r : Selection, index.slice r = .ok (d.slice r.range)

/-- The index of a text of fewer than 2^32 - 1 bytes stands for the document. -/
theorem represents_ofText {t : Text} (h : Utf8.size t < 2 ^ 32 - 1) :
    (ofText t).Represents ⟨t⟩ where
  text := rfl
  lineCount := toNat_lineCount h
  lastLine := toNat_lastLine h
  line? := line_eq t
  lineLength := lineLength_eq h
  fullSelection := fullSelection_eq h
  clamp := clamp_eq h
  clampSelection := clampSelection_eq h
  offsetAt := offsetAt_eq h
  slice := slice_eq h

/-- In a text of fewer than 2^32 - 1 bytes the offsets of cursors, wherever they point, are
boundaries of the text and in the order of the cursors.  So slicing, between whatever two
cursors, finds two boundaries in order and cuts between them: no index is out of its table,
no count overflows its word and no cut is refused.  What is found is what `Document` says. -/
theorem slice_never_fails (t : Text) (h : Utf8.size t < 2 ^ 32 - 1) :
    (∀ p q : Cursor, p.position ≤ q.position →
      ∃ a b, (ofText t).offsetAt p = .ok a ∧ (ofText t).offsetAt q = .ok b ∧
        a ≤ b ∧ b ≤ Utf8.size t ∧ t.IsBoundary a ∧ t.IsBoundary b) ∧
    (∀ r : Selection, ∃ s a b, (ofText t).clampSelection r = .ok s ∧
      (ofText t).offsetAt s.start = .ok a ∧ (ofText t).offsetAt s.stop = .ok b ∧
        a ≤ b ∧ b ≤ Utf8.size t ∧ t.IsBoundary a ∧ t.IsBoundary b ∧
        (ofText t).slice r = cut t a b ∧
        cut t a b = .ok ((Document.mk t).slice r.range)) ∧
    (∀ n : UInt32, (ofText t).line? n = .ok ((Document.mk t).line? n.toNat)) ∧
    (∀ p : Cursor, (ofText t).offsetAt p = .ok ((Document.mk t).offsetAt p.position)) := by
  have hordered : ∀ p q : Cursor, p.position ≤ q.position →
      ∃ a b, (ofText t).offsetAt p = .ok a ∧ (ofText t).offsetAt q = .ok b ∧
        a ≤ b ∧ b ≤ Utf8.size t ∧ t.IsBoundary a ∧ t.IsBoundary b := by
    intro p q hle
    exact ⟨_, _, offsetAt_eq h p, offsetAt_eq h q, (Document.mk t).offsetAt_mono hle,
      (Document.mk t).offsetAt_le_size _, Text.isBoundary_take t _, Text.isBoundary_take t _⟩
  refine ⟨hordered, fun r => ?_, line_eq t, offsetAt_eq h⟩
  obtain ⟨s, hclamp, hrange⟩ := clampSelection_eq h r
  have hcontains := (Document.mk t).containsRange_clampRange r.range
  rw [← hrange] at hcontains
  obtain ⟨a, b, ha, hb, hle, hsize, hstart, hstop⟩ := hordered s.start s.stop hcontains.2.2
  have hslice : (ofText t).slice r = cut t a b := by
    rw [slice, hclamp, ok_bind, ha, ok_bind, hb, ok_bind]
    rfl
  exact ⟨s, a, b, hclamp, ha, hb, hle, hsize, hstart, hstop, hslice,
    hslice.symm.trans (slice_eq h r)⟩

/-- A selection that runs backwards, from past the end of a text to the inside of one of its
characters. -/
theorem slice_never_fails_backwards :
    let t : Text := "a😀\r\nü\r"
    let p : Cursor := ⟨0, 2⟩
    let q : Cursor := ⟨7, 4294967295⟩
    Utf8.size t < 2 ^ 32 - 1 ∧ p.position ≤ q.position ∧
      (∃ a b, (ofText t).offsetAt p = .ok a ∧ (ofText t).offsetAt q = .ok b ∧ a ≤ b ∧
        b ≤ Utf8.size t ∧ t.IsBoundary a) ∧
      (∃ s a b, (ofText t).clampSelection ⟨q, p⟩ = .ok s ∧
        (ofText t).offsetAt s.start = .ok a ∧ (ofText t).offsetAt s.stop = .ok b ∧ a ≤ b ∧
        (ofText t).slice ⟨q, p⟩ = cut t a b) ∧
      (ofText t).slice ⟨q, p⟩ = .ok [] := by
  intro t p q
  have hsize : Utf8.size t < 2 ^ 32 - 1 := by decide +kernel
  have hle : p.position ≤ q.position := by decide +kernel
  obtain ⟨hordered, hslice, -, -⟩ := slice_never_fails t hsize
  obtain ⟨a, b, ha, hb, hab, hbound, hboundary, -⟩ := hordered p q hle
  obtain ⟨s, c, d, hclamp, hc, hd, hcd, -, -, -, hcut, hresult⟩ := hslice ⟨q, p⟩
  have hempty : (Document.mk t).slice (Selection.mk q p).range = [] := by decide +kernel
  rw [hempty] at hresult
  exact ⟨hsize, hle, ⟨a, b, ha, hb, hab, hbound, hboundary⟩, ⟨s, c, d, hclamp, hc, hd, hcd, hcut⟩,
    hcut.trans hresult⟩

end ByteIndex

end FishCheck
