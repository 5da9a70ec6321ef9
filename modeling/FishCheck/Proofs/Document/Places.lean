import FishCheck.Proofs.Document.Offsets
import Mathlib.Data.List.DropRight

/-!
# Positions of places

A place of a document is a cut of its text into a front and what is left.  Its position
is read off the front alone: the line feeds in it, and the code units behind the last of
them.  This module shows that positions and places name each other.  Two things stand in
the way and are named here: a place between a carriage return and its line feed is on no
line, and a position may point between the two code units of one character.

Main results:

- Theorem `exists_pieces_of_cut`: the pieces of a text are those of its front and of what
  is left, but for the two pieces that meet at the cut.
- Theorem `line_of_place`: what stands before a place on its line.
- Theorems `exists_piece`, `exists_place`: where a line stands in the text.
- Theorem `positions_offsets_inverse`: positions in the document and offsets of places
  are inverse to each other.
-/

namespace FishCheck

namespace Text

/-! ## Pieces of a front -/

/-- Pieces with a line feed behind each of them. -/
def closeLines (ps : List Text) : Text := ps.flatMap fun p => p ++ ['\n']

/-- What stands behind the last line feed of a text. -/
def lastPiece (t : Text) : Text := t.rtakeWhile fun c => c ≠ '\n'

/-- A cut between the carriage return and the line feed of one terminator. -/
def SplitsReturn (front back : Text) : Prop :=
  front.getLast? = some '\r' ∧ back.head? = some '\n'

theorem closeLines_concat (ps : List Text) (p : Text) :
    closeLines (ps ++ [p]) = closeLines ps ++ (p ++ ['\n']) := by
  simp [closeLines]

theorem lastPiece_concat (t : Text) (c : Char) :
    lastPiece (t ++ [c]) = if c = '\n' then [] else lastPiece t ++ [c] := by
  unfold lastPiece
  rw [List.rtakeWhile_concat]
  by_cases hc : c = '\n' <;> simp [hc]

/-- Joined pieces are the first ones closed, one more, and the others behind line feeds. -/
theorem joinLines_append (ps : List Text) (p : Text) (qs : List Text) :
    joinLines (ps ++ p :: qs) = closeLines ps ++ (p ++ qs.flatMap fun q => '\n' :: q) := by
  induction ps with
  | nil =>
    induction qs generalizing p with
    | nil => simp [joinLines, closeLines]
    | cons q qs ih =>
      have hrest := ih q
      simp_all [joinLines, closeLines, List.intercalate]
  | cons r rs ih =>
    cases hrs : rs ++ p :: qs with
    | nil => simp at hrs
    | cons s ss =>
      rw [hrs] at ih
      have hjoin : joinLines (r :: s :: ss) = r ++ '\n' :: joinLines (s :: ss) := by
        simp [joinLines, List.intercalate]
      rw [List.cons_append, hrs, hjoin, ih]
      simp [closeLines]

/-- Closed pieces are as long as the pieces and a line feed for each of them. -/
theorem length_closeLines (ps : List Text) :
    (closeLines ps).length = total (ps.map fun p => p.length + 1) := by
  induction ps with
  | nil => rfl
  | cons p ps ih =>
    rw [List.map_cons, total_cons, ← ih]
    simp [closeLines]
    omega

/-- There is a line feed for each closed piece. -/
theorem count_closeLines {ps : List Text} (h : ∀ p ∈ ps, '\n' ∉ p) :
    (closeLines ps).count '\n' = ps.length := by
  induction ps with
  | nil => rfl
  | cons p ps ih =>
    have hp : p.count '\n' = 0 := List.count_eq_zero.2 (h p List.mem_cons_self)
    have hrest := ih fun q hq => h q (List.mem_cons_of_mem p hq)
    have hcons : closeLines (p :: ps) = p ++ '\n' :: closeLines ps := by simp [closeLines]
    rw [hcons, List.count_append, List.count_cons_self, hp, hrest, List.length_cons]
    omega

/-- Nothing stands behind the last line feed of closed pieces. -/
theorem lastPiece_closeLines (ps : List Text) : lastPiece (closeLines ps) = [] := by
  cases ps using List.reverseRecOn with
  | nil => rfl
  | append_singleton ps p =>
    rw [closeLines_concat, ← List.append_assoc, lastPiece_concat, if_pos rfl]

/-- What is added without a line feed is added to the last piece. -/
theorem lastPiece_append {s t : Text} (h : '\n' ∉ t) : lastPiece (s ++ t) = lastPiece s ++ t := by
  induction t using List.reverseRecOn with
  | nil => simp
  | append_singleton t c ih =>
    rw [List.mem_append, not_or] at h
    have hc : c ≠ '\n' := by
      rintro rfl
      exact h.2 List.mem_cons_self
    rw [← List.append_assoc, lastPiece_concat, if_neg hc, ih h.1, List.append_assoc]

/-- The pieces of a text are those of its front and of what is left, but for the two that
meet at the cut. -/
theorem exists_pieces_append (s : Text) : ∃ earlier, ∀ t first rest, pieces t = first :: rest →
    pieces (s ++ t) = earlier ++ (lastPiece s ++ first) :: rest := by
  induction s using List.reverseRecOn with
  | nil => exact ⟨[], fun t first rest ht => ht⟩
  | append_singleton s c ih =>
    obtain ⟨earlier, hearlier⟩ := ih
    by_cases hc : c = '\n'
    · refine ⟨earlier ++ [lastPiece s], fun t first rest ht => ?_⟩
      have hct : pieces (c :: t) = [] :: first :: rest := by simp [pieces, hc, ht]
      rw [List.append_assoc, List.singleton_append, hearlier _ _ _ hct, lastPiece_concat,
        if_pos hc]
      simp
    · refine ⟨earlier, fun t first rest ht => ?_⟩
      have hct : pieces (c :: t) = (c :: first) :: rest := by simp [pieces, hc, ht, consPiece]
      rw [List.append_assoc, List.singleton_append, hearlier _ _ _ hct, lastPiece_concat,
        if_neg hc, List.append_assoc, List.singleton_append]

/-- A cut of a text: closed pieces, a piece that goes on over the cut, and further pieces. -/
theorem exists_pieces_of_cut (front back : Text) :
    ∃ earlier first later, pieces back = first :: later ∧
      pieces (front ++ back) = earlier ++ (lastPiece front ++ first) :: later ∧
      front = closeLines earlier ++ lastPiece front ∧ front.count '\n' = earlier.length := by
  obtain ⟨earlier, hearlier⟩ := exists_pieces_append front
  obtain ⟨first, later, hback⟩ := List.exists_cons_of_ne_nil (pieces_ne_nil back)
  have hfront : pieces front = earlier ++ [lastPiece front] := by
    simpa using hearlier [] [] [] rfl
  refine ⟨earlier, first, later, hback, hearlier _ _ _ hback, ?_, ?_⟩
  · have hjoin := pieces_join front
    rw [hfront, joinLines_append] at hjoin
    simpa using hjoin.symm
  · have hlength := length_pieces front
    rw [hfront, List.length_append, List.length_singleton] at hlength
    omega

/-- A carriage return at the end of a text is one of what was added to its front, unless
nothing was added. -/
theorem dropReturn_append {s t : Text} (h : t = [] → s.getLast? ≠ some '\r') :
    dropReturn (s ++ t) = s ++ dropReturn t := by
  rw [dropReturn_eq_iff]
  rcases (dropReturn_eq_iff t _).1 rfl with hreturn | ⟨hsame, hnone⟩
  · left
    rw [List.append_assoc, ← hreturn]
  · right
    rw [← hsame] at hnone ⊢
    refine ⟨rfl, ?_⟩
    rw [List.getLast?_append]
    cases hlast : t.getLast? with
    | none => simpa using h (List.getLast?_eq_none_iff.1 hlast)
    | some c =>
      rw [hlast] at hnone
      simpa using hnone

/-- Whatever has a line feed in front of its first piece starts with it. -/
theorem head_of_pieces_nil {t : Text} {rest : List Text} (h : pieces t = [] :: rest)
    (hrest : rest ≠ []) : t.head? = some '\n' := by
  cases rest with
  | nil => exact absurd rfl hrest
  | cons q qs =>
    have hjoin := pieces_join t
    rw [h] at hjoin
    rw [← hjoin]
    rfl

end Text

namespace Position

/-- The position of the place behind a front of a text: its line feeds, and the code units
behind the last of them. -/
def after (front : Text) : Position :=
  ⟨front.count '\n', Utf16.length (Text.lastPiece front)⟩

/-- The position one code unit further, which is inside the next character if that one has
two units. -/
def inside (front : Text) : Position :=
  ⟨front.count '\n', Utf16.length (Text.lastPiece front) + 1⟩

end Position

namespace Document

/-! ## Lines around places -/

theorem lineStart_eq_length (d : Document) (n : Nat) :
    d.lineStart n = (Text.closeLines (d.pieces.take n)).length :=
  (Text.length_closeLines _).symm

/-- A place is on the line of its position, behind as many characters of that line as
stand behind the last line feed before the place. -/
theorem line_of_place {d : Document} {front back : Text} (h : d.text = front ++ back)
    (hcut : ¬ Text.SplitsReturn front back) :
    ∃ rest, d.line? (front.count '\n') = some (Text.lastPiece front ++ rest) ∧
      d.lineStart (front.count '\n') + (Text.lastPiece front).length = front.length := by
  obtain ⟨earlier, first, later, hback, hpieces, hjoined, hcount⟩ :=
    Text.exists_pieces_of_cut front back
  rw [← h] at hpieces
  change d.pieces = _ at hpieces
  have hstart : d.lineStart earlier.length + (Text.lastPiece front).length = front.length := by
    rw [lineStart_eq_length, hpieces, List.take_left' rfl]
    conv_rhs => rw [hjoined, List.length_append]
  have hline : d.line? earlier.length = some
      (if earlier.length + 1 < d.lineCount then Text.dropReturn (Text.lastPiece front ++ first)
      else Text.lastPiece front ++ first) := by
    rw [line?, hpieces, List.getElem?_append_right (Nat.le_refl _), Nat.sub_self]
    rfl
  rw [hcount, hline]
  by_cases hlater : later = []
  · refine ⟨first, ?_, hstart⟩
    rw [if_neg]
    simp [lineCount, hpieces, hlater]
  · have hmore : earlier.length + 1 < d.lineCount := by
      have hpos := List.length_pos_of_ne_nil hlater
      simp [lineCount, hpieces]
      omega
    refine ⟨Text.dropReturn first, ?_, hstart⟩
    rw [if_pos hmore, Option.some_inj]
    refine Text.dropReturn_append ?_
    -- If nothing is left of the piece, the next character is its line feed.
    rintro rfl hreturn
    refine hcut ⟨?_, Text.head_of_pieces_nil hback hlater⟩
    rw [hjoined, List.getLast?_append, hreturn]
    rfl

/-- A piece stands behind closed pieces, and a line feed follows it unless it is the last. -/
theorem exists_piece (d : Document) {n : Nat} (h : n ≤ d.lastLine) :
    ∃ before piece behind, d.text = before ++ piece ++ behind ∧ d.pieces[n]? = some piece ∧
      '\n' ∉ piece ∧ before.length = d.lineStart n ∧ before.count '\n' = n ∧
      Text.lastPiece before = [] ∧
      (n + 1 < d.lineCount → ∃ rest, behind = '\n' :: rest) ∧
      (¬ n + 1 < d.lineCount → behind = []) := by
  obtain ⟨piece, -, hpiece, -, -, -⟩ := d.exists_line h
  obtain ⟨hn, hget⟩ := List.getElem?_eq_some_iff.1 hpiece
  have hpieces : d.pieces = d.pieces.take n ++ piece :: d.pieces.drop (n + 1) := by
    rw [← hget, List.getElem_cons_drop, List.take_append_drop]
  have htext : d.text = Text.closeLines (d.pieces.take n) ++
      (piece ++ (d.pieces.drop (n + 1)).flatMap fun q => '\n' :: q) := by
    conv_lhs => rw [← Text.pieces_join d.text]
    rw [← Text.joinLines_append, ← hpieces]
    rfl
  have hfeeds : ∀ q ∈ d.pieces.take n, '\n' ∉ q :=
    fun q hq => Text.not_mem_of_mem_pieces (List.mem_of_mem_take hq)
  have hcount : (Text.closeLines (d.pieces.take n)).count '\n' = n := by
    rw [Text.count_closeLines hfeeds, List.length_take, Nat.min_eq_left (Nat.le_of_lt hn)]
  refine ⟨_, piece, _, by rw [htext, List.append_assoc], hpiece,
    Text.not_mem_of_mem_pieces (List.mem_of_getElem? hpiece), (d.lineStart_eq_length n).symm,
    hcount, Text.lastPiece_closeLines _, fun hmore => ?_, fun hlast => ?_⟩
  · obtain ⟨q, qs, hdrop⟩ := List.exists_cons_of_ne_nil
      (List.ne_nil_of_length_pos (by rw [List.length_drop]; exact Nat.sub_pos_of_lt hmore))
    exact ⟨q ++ qs.flatMap fun q => '\n' :: q, by rw [hdrop, List.flatMap_cons, List.cons_append]⟩
  · rw [List.drop_eq_nil_of_le (Nat.le_of_not_lt hlast), List.flatMap_nil]

/-- A line stands behind closed pieces, and its terminator or the end of the text follows. -/
theorem exists_place (d : Document) {n : Nat} (h : n ≤ d.lastLine) :
    ∃ before content behind, d.text = before ++ content ++ behind ∧
      d.line? n = some content ∧ '\n' ∉ content ∧
      before.length = d.lineStart n ∧ before.count '\n' = n ∧ Text.lastPiece before = [] ∧
      ¬ Text.SplitsReturn (before ++ content) behind := by
  obtain ⟨before, piece, behind, htext, hpiece, hfeed, hlength, hcount, hlast, hmore, hend⟩ :=
    d.exists_piece h
  by_cases hn : n + 1 < d.lineCount
  · have hline : d.line? n = some (Text.dropReturn piece) := by
      rw [line?, hpiece, Option.map_some, if_pos hn]
    obtain ⟨rest, hbehind⟩ := hmore hn
    rcases (Text.dropReturn_eq_iff piece _).1 rfl with hreturn | ⟨hsame, hnone⟩
    · have hcontent : '\n' ∉ Text.dropReturn piece := by
        rw [hreturn] at hfeed
        exact fun hmem => hfeed (List.mem_append_left _ hmem)
      refine ⟨before, Text.dropReturn piece, '\r' :: behind, ?_, hline, hcontent, hlength, hcount,
        hlast, ?_⟩
      · conv_lhs => rw [htext, hreturn]
        simp
      · rintro ⟨-, hhead⟩
        simp at hhead
    · rw [← hsame] at hline hnone
      refine ⟨before, piece, behind, htext, hline, hfeed, hlength, hcount, hlast, ?_⟩
      rintro ⟨hreturn, -⟩
      cases hlast_piece : piece.getLast? with
      | some c =>
        rw [List.getLast?_append, hlast_piece] at hreturn
        exact hnone (hlast_piece.trans (by simpa using hreturn))
      | none =>
        -- An empty line stands behind a line feed or at the start of the text.
        rw [List.getLast?_append, hlast_piece, Option.none_or] at hreturn
        obtain ⟨front, rfl⟩ := List.getLast?_eq_some_iff.1 hreturn
        rw [Text.lastPiece_concat] at hlast
        simp at hlast
  · have hline : d.line? n = some piece := by
      rw [line?, hpiece, Option.map_some, if_neg hn]
    refine ⟨before, piece, behind, htext, hline, hfeed, hlength, hcount, hlast, ?_⟩
    rintro ⟨-, hhead⟩
    simp [hend hn] at hhead

/-! ## Code units and characters -/

/-- All code units of a front take its characters, and the others go on from there. -/
theorem charactersFor_append (s t : Text) (units : Nat) :
    charactersFor (s ++ t) (Utf16.length s + units) = s.length + charactersFor t units := by
  induction s with
  | nil => simp [Utf16.length]
  | cons c cs ih =>
    have hpos := Utf16.units_pos c
    have hless : Utf16.length (c :: cs) + units - Utf16.units c = Utf16.length cs + units := by
      rw [Utf16.length]
      omega
    rw [List.cons_append, charactersFor, if_neg (by rw [Utf16.length]; omega), hless, ih,
      List.length_cons]
    omega

theorem charactersFor_zero (t : Text) : charactersFor t 0 = 0 := by
  cases t <;> rfl

/-- The characters taken by some code units have just as many, or end with a character
of two units of which one was asked for. -/
theorem length_take_charactersFor (t : Text) {units : Nat} (h : units ≤ Utf16.length t) :
    Utf16.length (t.take (charactersFor t units)) = units ∨
      ∃ before c, t.take (charactersFor t units) = before ++ [c] ∧ Utf16.units c = 2 ∧
        units = Utf16.length before + 1 := by
  induction t generalizing units with
  | nil =>
    left
    rw [Utf16.length] at h
    simp only [charactersFor, List.take_nil, Utf16.length]
    omega
  | cons c cs ih =>
    by_cases hzero : units = 0
    · left
      simp [charactersFor, hzero, Utf16.length]
    · have hpos := Utf16.units_pos c
      have htwo := Utf16.units_le_two c
      have htake : (c :: cs).take (charactersFor (c :: cs) units) =
          c :: cs.take (charactersFor cs (units - Utf16.units c)) := by
        rw [charactersFor, if_neg hzero, List.take_succ_cons]
      rw [htake]
      by_cases hinside : units < Utf16.units c
      · right
        have hnone : units - Utf16.units c = 0 := by omega
        refine ⟨[], c, ?_, by omega, ?_⟩
        · rw [hnone, charactersFor_zero, List.take_zero, List.nil_append]
        · rw [Utf16.length]
          omega
      · have hrest : units - Utf16.units c ≤ Utf16.length cs := by
          rw [Utf16.length] at h
          omega
        rcases ih hrest with heq | ⟨before, b, htake_cs, hb, hunits⟩
        · left
          rw [Utf16.length, heq]
          omega
        · right
          refine ⟨c :: before, b, ?_, hb, ?_⟩
          · rw [htake_cs, List.cons_append]
          · rw [Utf16.length]
            omega

/-! ## Positions and offsets -/

/-- The offset of a position on the line of a place, as many code units behind what stands
before the place on that line. -/
theorem offsetAt_of_line {d : Document} {front rest back : Text} {units : Nat}
    (htext : d.text = front ++ back)
    (hline : d.line? (front.count '\n') = some (Text.lastPiece front ++ rest))
    (hstart : d.lineStart (front.count '\n') + (Text.lastPiece front).length = front.length)
    (hunits : units ≤ Utf16.length rest) :
    d.clamp ⟨front.count '\n', Utf16.length (Text.lastPiece front) + units⟩ =
        ⟨front.count '\n', Utf16.length (Text.lastPiece front) + units⟩ ∧
      d.indexAt ⟨front.count '\n', Utf16.length (Text.lastPiece front) + units⟩ =
        front.length + charactersFor rest units := by
  have hcontains :
      d.Contains ⟨front.count '\n', Utf16.length (Text.lastPiece front) + units⟩ := by
    refine ⟨?_, ?_⟩
    · change front.count '\n' ≤ d.lastLine
      rw [lastLine, lineCount_eq, htext, List.count_append]
      omega
    · rw [lineLength_of_line? hline, Utf16.length_append]
      exact Nat.add_le_add_left hunits _
  refine ⟨clamp_of_contains hcontains, ?_⟩
  rw [indexAt_of_contains hcontains hline, charactersFor_append, ← Nat.add_assoc, hstart]

/-- The position of a place is in the document and its offset is that of the place. -/
theorem offsetAt_after {d : Document} {front back : Text} (h : d.text = front ++ back)
    (hcut : ¬ Text.SplitsReturn front back) :
    d.clamp (Position.after front) = Position.after front ∧
      d.offsetAt (Position.after front) = Utf8.size front := by
  obtain ⟨rest, hline, hstart⟩ := line_of_place h hcut
  obtain ⟨hclamp, hindex⟩ := offsetAt_of_line h hline hstart (Nat.zero_le _)
  refine ⟨hclamp, ?_⟩
  rw [charactersFor_zero, Nat.add_zero] at hindex
  change d.indexAt (Position.after front) = front.length at hindex
  rw [offsetAt, hindex, h, List.take_left' rfl]

/-- A position between the two code units of a character is in the document and its offset
is the end of that character. -/
theorem offsetAt_inside {d : Document} {before back : Text} {c : Char}
    (h : d.text = before ++ c :: back) (hc : Utf16.units c = 2) :
    d.clamp (Position.inside before) = Position.inside before ∧
      d.offsetAt (Position.inside before) = Utf8.size (before ++ [c]) := by
  have hsplit : d.text = (before ++ [c]) ++ back := by
    rw [h, List.append_assoc, List.singleton_append]
  have hfeed : c ≠ '\n' := by
    rintro rfl
    exact absurd hc (by decide)
  have hreturn : c ≠ '\r' := by
    rintro rfl
    exact absurd hc (by decide)
  have hcut : ¬ Text.SplitsReturn (before ++ [c]) back := by
    rintro ⟨hlast, -⟩
    simp [hreturn] at hlast
  have hcount : (before ++ [c]).count '\n' = before.count '\n' := by
    simp [hfeed]
  have hlast : Text.lastPiece (before ++ [c]) = Text.lastPiece before ++ [c] := by
    rw [Text.lastPiece_concat, if_neg hfeed]
  obtain ⟨rest, hline, hstart⟩ := line_of_place hsplit hcut
  rw [hcount, hlast, List.append_assoc, List.singleton_append] at hline
  rw [hcount, hlast, List.length_append, List.length_append, ← Nat.add_assoc,
    Nat.add_right_cancel_iff] at hstart
  have hunits : 1 ≤ Utf16.length (c :: rest) := by
    rw [Utf16.length]
    omega
  obtain ⟨hclamp, hindex⟩ := offsetAt_of_line h hline hstart hunits
  refine ⟨hclamp, ?_⟩
  have hone : charactersFor (c :: rest) 1 = 1 := by
    rw [charactersFor, if_neg Nat.one_ne_zero, hc, charactersFor_zero]
  rw [hone] at hindex
  change d.indexAt (Position.inside before) = before.length + 1 at hindex
  rw [offsetAt, hindex, hsplit, List.take_left' (by simp)]

/-- The offset of a position in the document is that of a place, which has the position
unless that is between the two code units of the last character before the place. -/
theorem exists_place_of_clamp {d : Document} {p : Position} (h : d.clamp p = p) :
    ∃ front back, d.text = front ++ back ∧ ¬ Text.SplitsReturn front back ∧
      d.offsetAt p = Utf8.size front ∧
      (Position.after front = p ∨
        ∃ before c, front = before ++ [c] ∧ Utf16.units c = 2 ∧ p = Position.inside before) := by
  have hcontains : d.Contains p := by
    rw [← h]
    exact d.contains_clamp p
  obtain ⟨start, content, behind, htext, hline, hfeed, hlength, hcount, hlast, hcut⟩ :=
    d.exists_place hcontains.1
  have hcharacter : p.character ≤ Utf16.length content := by
    have hle := hcontains.2
    rwa [lineLength_of_line? hline] at hle
  have hindex := indexAt_of_contains hcontains hline
  have hcontent := List.take_append_drop (charactersFor content p.character) content
  have hfeed_take : '\n' ∉ content.take (charactersFor content p.character) :=
    fun hmem => hfeed (List.mem_of_mem_take hmem)
  refine ⟨start ++ content.take (charactersFor content p.character),
    content.drop (charactersFor content p.character) ++ behind, ?_, ?_, ?_, ?_⟩
  · conv_lhs => rw [htext, ← hcontent]
    simp only [List.append_assoc]
  · cases hdrop : content.drop (charactersFor content p.character) with
    | nil =>
      rw [hdrop, List.append_nil] at hcontent
      rw [hcontent, List.nil_append]
      exact hcut
    | cons c cs =>
      rintro ⟨-, hhead⟩
      have hc : c = '\n' := by simpa using hhead
      refine hfeed (List.mem_of_mem_drop (i := charactersFor content p.character) ?_)
      rw [hdrop, hc]
      exact List.mem_cons_self
  · rw [offsetAt, hindex, htext, List.append_assoc]
    rw [← hlength, List.take_length_add_append, List.take_append_of_le_length
      (charactersFor_le_length _ _)]
  · have hafter : ∀ s : Text, '\n' ∉ s →
        (start ++ s).count '\n' = p.line ∧ Text.lastPiece (start ++ s) = s := by
      intro s hs
      rw [List.count_append, hcount, List.count_eq_zero.2 hs, Text.lastPiece_append hs, hlast]
      exact ⟨rfl, rfl⟩
    obtain ⟨hafter_count, hafter_last⟩ := hafter _ hfeed_take
    rcases length_take_charactersFor content hcharacter with
      hexact | ⟨before, c, htake, hc, hunits⟩
    · left
      rw [Position.after, hafter_count, hafter_last, hexact]
    · right
      have hfeed_before : '\n' ∉ before := by
        rw [htake] at hfeed_take
        exact fun hmem => hfeed_take (List.mem_append_left _ hmem)
      obtain ⟨hbefore_count, hbefore_last⟩ := hafter before hfeed_before
      refine ⟨start ++ before, c, by rw [htake, List.append_assoc], hc, ?_⟩
      rw [Position.inside, hbefore_count, hbefore_last, ← hunits]

/-- Positions in the document and offsets of places are inverse to each other.  The
position of every place, but for those that split a terminator, is in the document and
leads back to the place; and every position in the document leads to the place whose
position it is, unless it points between the two code units of a character, when it leads
to the end of that character. -/
theorem positions_offsets_inverse (d : Document) :
    (∀ front back, d.text = front ++ back → ¬ Text.SplitsReturn front back →
      d.clamp (Position.after front) = Position.after front ∧
        d.offsetAt (Position.after front) = Utf8.size front) ∧
    (∀ p, d.clamp p = p →
      ∃ front back, d.text = front ++ back ∧ ¬ Text.SplitsReturn front back ∧
        d.offsetAt p = Utf8.size front ∧
        (Position.after front = p ∨
          ∃ before c, front = before ++ [c] ∧ Utf16.units c = 2 ∧ p = Position.inside before)) ∧
    (∀ before c back, d.text = before ++ c :: back → Utf16.units c = 2 →
      d.clamp (Position.inside before) = Position.inside before ∧
        d.offsetAt (Position.inside before) = Utf8.size (before ++ [c])) :=
  ⟨fun _ _ htext hcut => offsetAt_after htext hcut, fun _ hclamp => exists_place_of_clamp hclamp,
    fun _ _ _ htext hc => offsetAt_inside htext hc⟩

/-- A place on the second line of a text with characters of all sizes, and a position inside
a character of its first line. -/
theorem positions_offsets_inverse_mixed :
    let d : Document := ⟨"a😀\r\nü\r"⟩
    let front : Text := "a😀\r\nü"
    (d.text = front ++ ['\r'] ∧ ¬ Text.SplitsReturn front ['\r'] ∧
        Position.after front = ⟨1, 1⟩ ∧ d.offsetAt ⟨1, 1⟩ = 9) ∧
      (d.text = ['a'] ++ '😀' :: "\r\nü\r".toList ∧ Utf16.units '😀' = 2 ∧
        Position.inside ['a'] = ⟨0, 2⟩ ∧ d.offsetAt ⟨0, 2⟩ = 5) ∧
      d.clamp ⟨1, 2⟩ = ⟨1, 2⟩ ∧ ∃ place back, d.text = place ++ back ∧
        d.offsetAt ⟨1, 2⟩ = Utf8.size place := by
  intro d front
  obtain ⟨hafter, hplace, hinside⟩ := positions_offsets_inverse d
  have htext : d.text = front ++ ['\r'] := by decide +kernel
  have hcut : ¬ Text.SplitsReturn front ['\r'] := by
    rintro ⟨-, hhead⟩
    exact absurd hhead (by decide)
  have hposition : Position.after front = ⟨1, 1⟩ := by decide +kernel
  have hpair : d.text = ['a'] ++ '😀' :: "\r\nü\r".toList := by decide +kernel
  have htwo : Utf16.units '😀' = 2 := by decide
  have hhalf : Position.inside ['a'] = ⟨0, 2⟩ := by decide +kernel
  have hend : d.clamp ⟨1, 2⟩ = ⟨1, 2⟩ := by decide +kernel
  have hoffset := (hafter front ['\r'] htext hcut).2
  have hoffset_inside := (hinside ['a'] '😀' _ hpair htwo).2
  rw [hposition] at hoffset
  rw [hhalf] at hoffset_inside
  obtain ⟨place, back, hsplit, -, hsize, -⟩ := hplace ⟨1, 2⟩ hend
  exact ⟨⟨htext, hcut, hposition, hoffset.trans (by decide +kernel)⟩,
    ⟨hpair, htwo, hhalf, hoffset_inside.trans (by decide +kernel)⟩, hend, place, back, hsplit, hsize⟩

end Document

end FishCheck
