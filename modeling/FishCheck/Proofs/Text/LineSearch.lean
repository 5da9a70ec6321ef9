import FishCheck.Proofs.Text.Search

/-!
# Searching line by line

A pattern that starts with a line matches only where a line starts.  When what it matches there
stays in the line, and depends on nothing behind the line, a search of a whole text is a search
of each of its lines, which captures at most one match in a line.

Main results:

- Theorem `exists_line`: a text is its first line and what stands behind it.
- Theorem `LineWise.captures_eq`: searching a text line by line.
-/

namespace FishCheck

namespace Text

/-- The lines behind the first one do not depend on what the first one starts with. -/
theorem tail_pieces_cons {c : Char} (h : c ≠ '\n') (cs : Text) :
    (pieces (c :: cs)).tail = (pieces cs).tail := by
  rw [pieces, if_neg h]
  cases pieces cs <;> rfl

theorem tail_pieces_append {s : Text} (h : '\n' ∉ s) (t : Text) :
    (pieces (s ++ t)).tail = (pieces t).tail := by
  induction s with
  | nil => rfl
  | cons c cs ih =>
    rw [List.mem_cons, not_or] at h
    rw [List.cons_append, tail_pieces_cons (Ne.symm h.1), ih h.2]

end Text

namespace Search

/-! ## The end of a line -/

/-- A text that goes on with the next line, or not at all. -/
def AtLineEnd (tail : Text) : Prop := tail = [] ∨ ∃ cs, tail = '\n' :: cs

theorem atLineEnd_iff (t : Text) : t.head?.all (· == '\n') = true ↔ AtLineEnd t := by
  cases t with
  | nil => simp [AtLineEnd]
  | cons c cs => simp [AtLineEnd]

/-- What is inside a line does not end it. -/
theorem not_atLineEnd {line tail : Text} (hne : line ≠ []) (hline : '\n' ∉ line) :
    ¬AtLineEnd (line ++ tail) := by
  cases line with
  | nil => exact absurd rfl hne
  | cons c cs =>
    rintro (h | ⟨ds, h⟩)
    · cases h
    · obtain ⟨rfl, -⟩ := List.cons.inj h
      exact hline List.mem_cons_self

/-- A text is its first line and what stands behind it. -/
theorem exists_line (t : Text) : ∃ line tail : Text,
    t = line ++ tail ∧ '\n' ∉ line ∧ AtLineEnd tail ∧
      Text.pieces t = line :: (Text.pieces tail).tail := by
  induction t with
  | nil => exact ⟨[], [], rfl, List.not_mem_nil, Or.inl rfl, rfl⟩
  | cons c cs ih =>
    by_cases hc : c = '\n'
    · subst hc
      exact ⟨[], '\n' :: cs, rfl, List.not_mem_nil, Or.inr ⟨cs, rfl⟩, by simp [Text.pieces]⟩
    · obtain ⟨line, tail, rfl, hline, hend, hpieces⟩ := ih
      refine ⟨c :: line, tail, rfl, ?_, hend, ?_⟩
      · rw [List.mem_cons, not_or]
        exact ⟨Ne.symm hc, hline⟩
      · rw [Text.pieces, if_neg hc, hpieces]
        rfl

/-! ## Lines and their matches -/

/-- A pattern that starts with a line, and what it captures of a line: what stands behind the
line does not matter, and the match ends in the line. -/
structure LineWise (items : List Item) (groups? : Text → Option (List Text)) : Prop where
  inside : ∀ t, first? items ⟨false, t⟩ = none
  of_none : ∀ {line tail}, '\n' ∉ line → AtLineEnd tail → groups? line = none →
    first? items ⟨true, line ++ tail⟩ = none
  of_some : ∀ {line tail groups}, '\n' ∉ line → AtLineEnd tail → groups? line = some groups →
    ∃ behind, behind.length < line.length ∧ '\n' ∉ behind ∧
      first? items ⟨true, line ++ tail⟩ = some (groups, ⟨false, behind ++ tail⟩)

section

variable {items : List Item} {groups? : Text → Option (List Text)}

/-- From the start of a line a search captures what the lines hold, and from within a line what
the lines behind that one hold. -/
theorem LineWise.captures_both (h : LineWise items groups?) (t : Text) :
    captures items ⟨true, t⟩ = (Text.pieces t).filterMap groups? ∧
      captures items ⟨false, t⟩ = (Text.pieces t).tail.filterMap groups? := by
  -- the induction is on the length, since a match goes on behind a part of the line
  induction hlength : t.length using Nat.strongRecOn generalizing t with
  | ind n ih =>
    subst hlength
    have hbehind : ∀ c cs, t = c :: cs →
        captures items ⟨c == '\n', cs⟩ = (Text.pieces t).tail.filterMap groups? := by
      rintro c cs rfl
      obtain ⟨hstart, hwithin⟩ := ih cs.length (Nat.lt_succ_self _) cs rfl
      by_cases hc : c = '\n'
      · subst hc
        simpa [Text.pieces] using hstart
      · rw [beq_eq_false_iff_ne.2 hc, hwithin, Text.tail_pieces_cons hc]
    constructor
    · obtain ⟨line, tail, ht, hline, hend, hpieces⟩ := exists_line t
      have htail : (Text.pieces t).tail = (Text.pieces tail).tail := by rw [hpieces]; rfl
      cases hgroups : groups? line with
      | some groups =>
        obtain ⟨behind, hshort, hfeed, hfirst⟩ := h.of_some hline hend hgroups
        have hlt : (behind ++ tail).length < t.length := by
          rw [ht, List.length_append, List.length_append]
          omega
        rw [← ht] at hfirst
        rw [captures_of_some hfirst hlt, (ih _ hlt _ rfl).2, Text.tail_pieces_append hfeed,
          hpieces, List.filterMap_cons_some hgroups]
      | none =>
        have hfirst := h.of_none hline hend hgroups
        rw [← ht] at hfirst
        rw [hpieces, List.filterMap_cons_none hgroups, ← htail]
        cases hcases : t with
        | nil =>
          rw [hcases] at hfirst
          exact captures_nil hfirst
        | cons c cs =>
          rw [hcases] at hfirst
          rw [captures_cons hfirst, hbehind c cs hcases, hcases]
    · cases hcases : t with
      | nil => exact captures_nil (h.inside [])
      | cons c cs => rw [captures_cons (h.inside _), hbehind c cs hcases, hcases]

/-- Searching a text captures what its lines hold, line by line. -/
theorem LineWise.captures_eq (h : LineWise items groups?) (t : Text) :
    captures items ⟨true, t⟩ = (Text.pieces t).filterMap groups? :=
  (h.captures_both t).1

end

end Search

end FishCheck
