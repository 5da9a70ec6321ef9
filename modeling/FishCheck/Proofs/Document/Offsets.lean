import FishCheck.Document.Basic
import Mathlib.Data.List.Basic
import Mathlib.Order.Monotone.Basic

/-!
# Where positions fall

A position is clamped into the document and then counted out as a number of
characters, line by line and code unit by code unit.  This module shows that the
clamped positions form a bounded, ordered part of all positions, that counting them
out respects the order, and that both ends of the document fall where they should.
The same holds for the numbers of bytes, which are those of the characters before.

Main results:

- Theorem `clamp_mono`: clamping respects the order of positions.
- Theorem `clampRange_clampRange`: a clamped range is in the document and in order.
- Theorem `indexAt_mono`: later positions have no fewer characters before them.
- Theorem `indexAt_stop`: all characters stand before the end of the document.
- Theorem `encode_slice`: the bytes of a slice are those between the offsets of its ends.
-/

namespace FishCheck

/-- A front of a text goes on to a longer one with the characters between their ends. -/
theorem Text.take_append_drop_take (t : Text) {m n : Nat} (h : m ≤ n) :
    t.take m ++ (t.take n).drop m = t.take n := by
  conv_rhs => rw [← List.take_append_drop m (t.take n), List.take_take, Nat.min_eq_left h]

namespace Document

/-! ## Lines -/

theorem lineStart_zero (d : Document) : d.lineStart 0 = 0 := rfl

/-- A line starts behind the piece before it and that piece's line feed. -/
theorem lineStart_succ (d : Document) {n : Nat} {piece : Text} (h : d.pieces[n]? = some piece) :
    d.lineStart (n + 1) = d.lineStart n + piece.length + 1 := by
  unfold lineStart
  rw [List.take_add_one, h, Option.toList_some, List.map_append, Text.total_append]
  simp [Nat.add_assoc]

theorem lineStart_le_succ (d : Document) (n : Nat) : d.lineStart n ≤ d.lineStart (n + 1) := by
  unfold lineStart
  rw [List.take_add_one, List.map_append, Text.total_append]
  exact Nat.le_add_right _ _

/-- Later lines start no earlier. -/
theorem lineStart_mono (d : Document) {m n : Nat} (h : m ≤ n) : d.lineStart m ≤ d.lineStart n :=
  monotone_nat_of_le_succ d.lineStart_le_succ h

/-- Joined pieces are as long as the pieces and the line feeds between them. -/
theorem length_joinLines {ps : List Text} (h : ps ≠ []) :
    (Text.joinLines ps).length + 1 = Text.total (ps.map fun p => p.length + 1) := by
  induction ps with
  | nil => exact absurd rfl h
  | cons p ps ih =>
    cases ps with
    | nil => simp [Text.joinLines]
    | cons q qs =>
      have hrest := ih (List.cons_ne_nil q qs)
      have hjoin : Text.joinLines (p :: q :: qs) = p ++ '\n' :: Text.joinLines (q :: qs) := by
        simp [Text.joinLines, List.intercalate]
      rw [hjoin, List.map_cons, Text.total_cons, ← hrest, List.length_append, List.length_cons]
      omega

/-- One line feed more would end the text. -/
theorem lineStart_lineCount (d : Document) : d.lineStart d.lineCount = d.text.length + 1 := by
  have hjoin := length_joinLines (Text.pieces_ne_nil d.text)
  rw [Text.pieces_join] at hjoin
  rw [lineStart, lineCount, List.take_length, pieces, ← hjoin]

theorem lineCount_eq_succ (d : Document) : d.lineCount = d.lastLine + 1 :=
  (Nat.sub_add_cancel d.lineCount_pos).symm

theorem lastLine_lt_lineCount (d : Document) : d.lastLine < d.lineCount := by
  rw [lineCount_eq_succ]
  exact Nat.lt_succ_self _

theorem lineLength_of_line? {d : Document} {n : Nat} {content : Text}
    (h : d.line? n = some content) : d.lineLength n = Utf16.length content := by
  rw [lineLength, h, Option.map_some, Option.getD_some]

/-- Every line up to the last one has a piece, and its content is no longer than that. -/
theorem exists_line (d : Document) {n : Nat} (h : n ≤ d.lastLine) :
    ∃ piece content, d.pieces[n]? = some piece ∧ d.line? n = some content ∧
      content.length ≤ piece.length ∧ (n = d.lastLine → content = piece) := by
  have hlast := d.lastLine_lt_lineCount
  have hn : n < d.pieces.length := by
    change n < d.lineCount
    omega
  refine ⟨d.pieces[n], if n + 1 < d.lineCount then Text.dropReturn d.pieces[n] else d.pieces[n],
    List.getElem?_eq_getElem hn, ?_, ?_, ?_⟩
  · simp [line?, List.getElem?_eq_getElem hn]
  · split
    · unfold Text.dropReturn
      split
      · simp
      · exact Nat.le_refl _
    · exact Nat.le_refl _
  · rintro rfl
    rw [if_neg]
    exact Nat.not_lt.2 (Nat.le_of_eq d.lineCount_eq_succ)

/-! ## Clamping -/

/-- A position in the document: on one of its lines, and not past the end of that line. -/
def Contains (d : Document) (p : Position) : Prop :=
  p.line ≤ d.lastLine ∧ p.character ≤ d.lineLength p.line

theorem contains_stop (d : Document) : d.Contains d.stop :=
  ⟨Nat.le_refl _, Nat.le_refl _⟩

theorem contains_clamp (d : Document) (p : Position) : d.Contains (d.clamp p) := by
  unfold clamp
  split
  · exact d.contains_stop
  · rename_i hline
    exact ⟨Nat.le_of_not_lt hline, Nat.min_le_right _ _⟩

/-- Clamping leaves the positions in the document where they are. -/
theorem clamp_of_contains {d : Document} {p : Position} (h : d.Contains p) : d.clamp p = p := by
  obtain ⟨hline, hcharacter⟩ := h
  rw [clamp, if_neg (Nat.not_lt.2 hline), Nat.min_eq_left hcharacter]

theorem clamp_clamp (d : Document) (p : Position) : d.clamp (d.clamp p) = d.clamp p :=
  clamp_of_contains (d.contains_clamp p)

/-- No position in the document is past its end. -/
theorem le_stop_of_contains {d : Document} {p : Position} (h : d.Contains p) : p ≤ d.stop := by
  obtain ⟨hline, hcharacter⟩ := h
  rw [Position.le_def]
  rcases Nat.lt_or_eq_of_le hline with hlt | heq
  · exact Or.inl hlt
  · refine Or.inr ⟨heq, ?_⟩
    rw [heq] at hcharacter
    exact hcharacter

/-- Clamping respects the order of positions. -/
theorem clamp_mono (d : Document) {p q : Position} (h : p ≤ q) : d.clamp p ≤ d.clamp q := by
  by_cases hq : d.lastLine < q.line
  · rw [clamp_of_lastLine_lt hq]
    exact le_stop_of_contains (d.contains_clamp p)
  · have hp : ¬ d.lastLine < p.line := by
      rcases h with hlt | ⟨heq, -⟩ <;> omega
    rw [clamp, clamp, if_neg hp, if_neg hq, Position.le_def]
    rcases h with hlt | ⟨heq, hle⟩
    · exact Or.inl hlt
    · refine Or.inr ⟨heq, ?_⟩
      change min p.character (d.lineLength p.line) ≤ min q.character (d.lineLength q.line)
      rw [heq]
      omega

/-- A range in the document that does not run backwards. -/
def ContainsRange (d : Document) (r : Range) : Prop :=
  d.Contains r.start ∧ d.Contains r.stop ∧ r.start ≤ r.stop

theorem containsRange_clampRange (d : Document) (r : Range) : d.ContainsRange (d.clampRange r) := by
  unfold clampRange
  simp only
  split
  · rename_i hle
    exact ⟨d.contains_clamp _, d.contains_clamp _, hle⟩
  · exact ⟨d.contains_clamp _, d.contains_clamp _, Position.le_refl _⟩

theorem containsRange_fullRange (d : Document) : d.ContainsRange d.fullRange := by
  have hstart : d.Contains ⟨0, 0⟩ := ⟨Nat.zero_le _, Nat.zero_le _⟩
  exact ⟨hstart, d.contains_stop, le_stop_of_contains hstart⟩

/-- Clamping leaves such ranges as they are. -/
theorem clampRange_of_containsRange {d : Document} {r : Range} (h : d.ContainsRange r) :
    d.clampRange r = r := by
  obtain ⟨hstart, hstop, hle⟩ := h
  simp only [clampRange, clamp_of_contains hstart, clamp_of_contains hstop, if_pos hle]

theorem clampRange_clampRange (d : Document) (r : Range) :
    d.clampRange (d.clampRange r) = d.clampRange r :=
  clampRange_of_containsRange (d.containsRange_clampRange r)

/-! ## Characters before a position -/

theorem charactersFor_le_length (t : Text) (units : Nat) : charactersFor t units ≤ t.length := by
  induction t generalizing units with
  | nil => exact Nat.le_refl _
  | cons c cs ih =>
    unfold charactersFor
    split
    · exact Nat.zero_le _
    · exact Nat.succ_le_succ (ih _)

/-- More code units take no fewer characters. -/
theorem charactersFor_mono (t : Text) {u v : Nat} (h : u ≤ v) :
    charactersFor t u ≤ charactersFor t v := by
  induction t generalizing u v with
  | nil => exact Nat.le_refl _
  | cons c cs ih =>
    unfold charactersFor
    by_cases hu : u = 0
    · rw [if_pos hu]
      exact Nat.zero_le _
    · rw [if_neg hu, if_neg (by omega)]
      exact Nat.succ_le_succ (ih (by omega))

/-- All code units of a text take all its characters. -/
theorem charactersFor_length (t : Text) : charactersFor t (Utf16.length t) = t.length := by
  induction t with
  | nil => rfl
  | cons c cs ih =>
    have hpos := Utf16.units_pos c
    rw [charactersFor, Utf16.length, if_neg (by omega), Nat.add_sub_cancel_left, ih,
      List.length_cons]

/-- A position in the document stands behind the start of its line and as many characters
of the line as its code units take. -/
theorem indexAt_of_contains {d : Document} {p : Position} (h : d.Contains p) {content : Text}
    (hcontent : d.line? p.line = some content) :
    d.indexAt p = d.lineStart p.line + charactersFor content p.character := by
  simp only [indexAt, clamp_of_contains h, hcontent, Option.getD_some]

/-- A position stands behind the start of its line and before the start of the next one. -/
theorem indexAt_mem_line (d : Document) (p : Position) :
    d.lineStart (d.clamp p).line ≤ d.indexAt p ∧
      d.indexAt p < d.lineStart ((d.clamp p).line + 1) := by
  obtain ⟨piece, content, hpiece, hcontent, hle, -⟩ := d.exists_line (d.contains_clamp p).1
  have hcount := charactersFor_le_length content (d.clamp p).character
  rw [d.lineStart_succ hpiece]
  simp only [indexAt, hcontent, Option.getD_some]
  omega

/-- Positions are counted out after clamping. -/
theorem indexAt_clamp (d : Document) (p : Position) : d.indexAt (d.clamp p) = d.indexAt p := by
  simp only [indexAt, clamp_clamp]

/-- Later positions have no fewer characters before them. -/
theorem indexAt_mono (d : Document) {p q : Position} (h : p ≤ q) : d.indexAt p ≤ d.indexAt q := by
  rcases d.clamp_mono h with hlt | ⟨heq, hle⟩
  · have hp := (d.indexAt_mem_line p).2
    have hq := (d.indexAt_mem_line q).1
    have hline : d.lineStart ((d.clamp p).line + 1) ≤ d.lineStart (d.clamp q).line :=
      d.lineStart_mono hlt
    omega
  · simp only [indexAt]
    rw [heq]
    exact Nat.add_le_add_left (charactersFor_mono _ hle) _

theorem indexAt_origin (d : Document) : d.indexAt ⟨0, 0⟩ = 0 := by
  have horigin : d.Contains ⟨0, 0⟩ := ⟨Nat.zero_le _, Nat.zero_le _⟩
  have hnone : ∀ t : Text, charactersFor t 0 = 0 := by
    intro t
    cases t <;> rfl
  simp only [indexAt, clamp_of_contains horigin, lineStart_zero, hnone]

/-- All characters stand before the end of the document. -/
theorem indexAt_stop (d : Document) : d.indexAt d.stop = d.text.length := by
  obtain ⟨piece, content, hpiece, hcontent, -, hlast⟩ := d.exists_line (Nat.le_refl d.lastLine)
  have hall : d.lineStart (d.lastLine + 1) = d.text.length + 1 := by
    rw [← d.lineStart_lineCount, ← d.lineCount_eq_succ]
  rw [d.lineStart_succ hpiece] at hall
  rw [indexAt_of_contains d.contains_stop hcontent]
  simp only [stop, lineLength_of_line? hcontent, charactersFor_length]
  rw [hlast rfl]
  omega

theorem indexAt_le_length (d : Document) (p : Position) : d.indexAt p ≤ d.text.length := by
  rw [← indexAt_clamp, ← indexAt_stop]
  exact d.indexAt_mono (le_stop_of_contains (d.contains_clamp p))

/-! ## Bytes before a position -/

/-- The bytes of the first characters are the first bytes. -/
theorem encode_take (t : Text) (n : Nat) :
    Utf8.encode (t.take n) = (Utf8.encode t).take (Utf8.size (t.take n)) := by
  conv_rhs => rw [← List.take_append_drop n t, Utf8.encode_append]
  rw [List.take_left' (by rw [List.take_append_drop, Utf8.length_encode])]

/-- The bytes of the other characters are the other bytes. -/
theorem encode_drop (t : Text) (n : Nat) :
    Utf8.encode (t.drop n) = (Utf8.encode t).drop (Utf8.size (t.take n)) := by
  conv_rhs => rw [← List.take_append_drop n t, Utf8.encode_append]
  rw [List.drop_left' (by rw [List.take_append_drop, Utf8.length_encode])]

/-- More characters have no fewer bytes. -/
theorem size_take_mono (t : Text) {m n : Nat} (h : m ≤ n) :
    Utf8.size (t.take m) ≤ Utf8.size (t.take n) := by
  rw [← t.take_append_drop_take h, Utf8.size_append]
  exact Nat.le_add_right _ _

theorem offsetAt_mono (d : Document) {p q : Position} (h : p ≤ q) :
    d.offsetAt p ≤ d.offsetAt q :=
  size_take_mono d.text (d.indexAt_mono h)

theorem offsetAt_origin (d : Document) : d.offsetAt ⟨0, 0⟩ = 0 := by
  simp [offsetAt, indexAt_origin, Utf8.size]

theorem offsetAt_stop (d : Document) : d.offsetAt d.stop = Utf8.size d.text := by
  rw [offsetAt, indexAt_stop, List.take_length]

theorem offsetAt_le_size (d : Document) (p : Position) : d.offsetAt p ≤ Utf8.size d.text := by
  rw [offsetAt]
  conv_rhs => rw [← List.take_length (l := d.text)]
  exact size_take_mono d.text (d.indexAt_le_length p)

/-- The slice of a range in the document holds the characters between its ends. -/
theorem slice_of_containsRange {d : Document} {r : Range} (h : d.ContainsRange r) :
    d.slice r = (d.text.take (d.indexAt r.stop)).drop (d.indexAt r.start) := by
  simp only [slice, clampRange_of_containsRange h]

/-- The bytes of a slice are those between the offsets of its ends. -/
theorem encode_slice {d : Document} {r : Range} (h : d.ContainsRange r) :
    Utf8.encode (d.slice r) =
      ((Utf8.encode d.text).take (d.offsetAt r.stop)).drop (d.offsetAt r.start) := by
  have hindex := d.indexAt_mono h.2.2
  rw [slice_of_containsRange h, offsetAt, offsetAt, encode_drop, encode_take, List.take_take,
    Nat.min_eq_left hindex]

/-- The slice of the whole document is its text. -/
theorem slice_fullRange (d : Document) : d.slice d.fullRange = d.text := by
  rw [slice_of_containsRange d.containsRange_fullRange]
  simp only [fullRange, indexAt_origin, indexAt_stop, List.take_length, List.drop_zero]

end Document

end FishCheck
