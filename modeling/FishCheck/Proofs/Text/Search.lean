import FishCheck.Text.Basic

/-!
# Leftmost-first search

A pattern is a list of items: anchors at the start and the end of lines, characters, and
repetitions of a class of characters, each of which is captured as a group.  A search tries
the ways to read each item in the order of preference, goes back to the last choice when
the rest of the pattern does not match, and looks for the next match behind the last one.

Main results:

- Theorems `captures_of_some` and `captures_cons`: how a search goes on after a match, and
  where there is none.
- Theorems `first_shortest_cons` and `first_longest_cons`: one more character of a
  repetition is the last or the first choice.
- Theorem `first_literals`: characters of a pattern are taken off the front of the text.
- Theorem `first_longest_eq`: when a longest repetition need not go back.
- Theorems `first_longest_eq_some_iff` and `first_longest_one_eq_some_iff`: where it ends when
  it has to go back.
-/

namespace FishCheck

namespace Search

/-! ## Patterns and their matches -/

/-- A spot in a text: whether a line starts there, and the text from there on. -/
structure Spot where
  fresh : Bool
  rest : Text

/-- One item of a pattern; a repetition is a group that is captured. -/
inductive Item where
  | lineStart
  | lineEnd
  | literal (c : Char)
  /-- The character if it is there. -/
  | optional (c : Char)
  /-- At least so many characters of a class, as few as possible. -/
  | shortest (least : Nat) (p : Char → Bool)
  /-- At least so many characters of a class, as many as possible. -/
  | longest (least : Nat) (p : Char → Bool)

/-- The groups that a match captures, and the spot behind it. -/
abbrev Match := List Text × Spot

/-- The spot behind a character, if that character is next. -/
def Spot.skip? (c : Char) (spot : Spot) : Option Spot :=
  match spot.rest with
  | [] => none
  | d :: ds => if d = c then some ⟨d == '\n', ds⟩ else none

/-- The ways to take at least so many characters of a class in a row, fewest first. -/
def runs (p : Char → Bool) : Nat → Bool → Text → List (Text × Spot)
  | 0, fresh, [] => [([], ⟨fresh, []⟩)]
  | _ + 1, _, [] => []
  | 0, fresh, c :: cs =>
    ([], ⟨fresh, c :: cs⟩) ::
      if p c then (runs p 0 (c == '\n') cs).map fun (taken, spot) => (c :: taken, spot) else []
  | least + 1, _, c :: cs =>
    if p c then (runs p least (c == '\n') cs).map fun (taken, spot) => (c :: taken, spot) else []

/-- The ways to read one item from a spot, preferred ways first. -/
def Item.ways (spot : Spot) : Item → List Match
  | lineStart => if spot.fresh then [([], spot)] else []
  | lineEnd => if spot.rest.head?.all (· == '\n') then [([], spot)] else []
  | literal c => (spot.skip? c).toList.map fun next => ([], next)
  | optional c => (spot.skip? c).toList.map (fun next => ([], next)) ++ [([], spot)]
  | shortest least p =>
    (runs p least spot.fresh spot.rest).map fun (taken, next) => ([taken], next)
  | longest least p =>
    (runs p least spot.fresh spot.rest).reverse.map fun (taken, next) => ([taken], next)

/-- The first match of a pattern that starts at a spot, in the order of preference. -/
def first? : List Item → Spot → Option Match
  | [], spot => some ([], spot)
  | item :: items, spot =>
    (item.ways spot).findSome? fun (groups, next) =>
      (first? items next).map fun (groups', last) => (groups ++ groups', last)

/-- What the matches of a pattern capture, searched from left to right: after a match the
search goes on behind it, elsewhere behind the next character.  A match that takes nothing
is passed over. -/
def captures (items : List Item) (spot : Spot) : List (List Text) :=
  match _hmatch : (first? items spot).filter (·.2.rest.length < spot.rest.length) with
  | some (groups, next) => groups :: captures items next
  | none =>
    match _hrest : spot.rest with
    | [] => []
    | c :: cs => captures items ⟨c == '\n', cs⟩
termination_by spot.rest.length
decreasing_by
  · exact of_decide_eq_true (Option.filter_eq_some_iff.1 _hmatch).2
  · rw [_hrest]
    exact Nat.lt_succ_self _

section

variable {items : List Item} {fresh : Bool} {c : Char} {cs : Text}

/-- After a match the search goes on behind it. -/
theorem captures_of_some {spot next : Spot} {groups : List Text}
    (hfirst : first? items spot = some (groups, next))
    (hlt : next.rest.length < spot.rest.length) :
    captures items spot = groups :: captures items next := by
  have hfilter : (first? items spot).filter (·.2.rest.length < spot.rest.length) =
      some (groups, next) := by
    rw [hfirst]
    simp [hlt]
  rw [captures]
  split
  · rename_i heq
    rw [hfilter] at heq
    obtain ⟨rfl, rfl⟩ := Prod.mk.inj (Option.some.inj heq)
    rfl
  · rename_i heq
    rw [hfilter] at heq
    cases heq

/-- At the end of a text without a match the search is over. -/
theorem captures_nil (hfirst : first? items ⟨fresh, []⟩ = none) :
    captures items ⟨fresh, []⟩ = [] := by
  rw [captures]
  split
  · rename_i heq
    rw [hfirst] at heq
    cases heq
  · rfl

/-- Without a match the search goes on behind the next character. -/
theorem captures_cons (hfirst : first? items ⟨fresh, c :: cs⟩ = none) :
    captures items ⟨fresh, c :: cs⟩ = captures items ⟨c == '\n', cs⟩ := by
  rw [captures]
  split
  · rename_i heq
    rw [hfirst] at heq
    cases heq
  · rfl

end

/-! ## Matching one item after the other -/

/-- Puts a character in front of the first group that a match captures. -/
def push (c : Char) (m : Match) : Match := (m.1.modifyHead (c :: ·), m.2)

/-- Puts a group in front of the groups that a match captures. -/
def capture (group : Text) (m : Match) : Match := (group :: m.1, m.2)

/-- The match that goes on behind one way to take a group. -/
def behind (items : List Item) (way : Text × Spot) : Option Match :=
  (first? items way.2).map (capture way.1)

/-- A pattern that starts with a line matches only where a line starts. -/
theorem first_lineStart (items : List Item) (fresh : Bool) (t : Text) :
    first? (.lineStart :: items) ⟨fresh, t⟩ = if fresh then first? items ⟨fresh, t⟩ else none := by
  cases fresh <;> simp [first?, Item.ways]

theorem first_lineEnd (fresh : Bool) (t : Text) :
    first? [.lineEnd] ⟨fresh, t⟩ =
      if t.head?.all (· == '\n') then some ([], ⟨fresh, t⟩) else none := by
  simp only [first?, Item.ways]
  split <;> simp

theorem first_literal (c : Char) (items : List Item) (spot : Spot) :
    first? (.literal c :: items) spot = (spot.skip? c).bind (first? items) := by
  cases hskip : spot.skip? c <;> simp [first?, Item.ways, hskip]

theorem first_optional (c : Char) (items : List Item) (spot : Spot) :
    first? (.optional c :: items) spot =
      ((spot.skip? c).bind (first? items)).or (first? items spot) := by
  cases hskip : spot.skip? c with
  | none => simp [first?, Item.ways, hskip]
  | some next =>
    cases hfirst : first? items next <;>
      simp [first?, Item.ways, hskip, hfirst, List.findSome?_cons]
    cases first? items spot <;> rfl

theorem first_shortest (least : Nat) (p : Char → Bool) (items : List Item) (spot : Spot) :
    first? (.shortest least p :: items) spot =
      (runs p least spot.fresh spot.rest).findSome? (behind items) := by
  simp only [first?, Item.ways, List.findSome?_map]
  rfl

theorem first_longest (least : Nat) (p : Char → Bool) (items : List Item) (spot : Spot) :
    first? (.longest least p :: items) spot =
      (runs p least spot.fresh spot.rest).reverse.findSome? (behind items) := by
  simp only [first?, Item.ways, List.findSome?_map]
  rfl

/-- One more character in every way to take a group is one more in the group captured. -/
theorem findSome_push (c : Char) (items : List Item) (ways : List (Text × Spot)) :
    (ways.map fun (taken, spot) => (c :: taken, spot)).findSome? (behind items) =
      (ways.findSome? (behind items)).map (push c) := by
  have hpush : ∀ way : Text × Spot,
      behind items (c :: way.1, way.2) = (behind items way).map (push c) := by
    intro way
    rw [behind, behind, Option.map_map]
    rfl
  rw [List.findSome?_map, List.map_findSome?]
  congr 1
  funext way
  exact hpush way

section

variable (p : Char → Bool) (items : List Item) (fresh : Bool) (c : Char) (cs : Text)

/-- As few characters as possible: one more is taken only when the rest of the pattern does
not match. -/
theorem first_shortest_cons :
    first? (.shortest 0 p :: items) ⟨fresh, c :: cs⟩ =
      ((first? items ⟨fresh, c :: cs⟩).map (capture [])).or
        (if p c then (first? (.shortest 0 p :: items) ⟨c == '\n', cs⟩).map (push c) else none) := by
  rw [first_shortest, first_shortest]
  simp only [runs, List.findSome?_cons]
  rw [behind]
  cases first? items ⟨fresh, c :: cs⟩ with
  | some m => rfl
  | none =>
    by_cases hc : p c
    · simp only [hc, if_true, findSome_push]
      rfl
    · simp [hc]

/-- As many characters as possible: the rest of the pattern is tried only when one more
character leads to no match. -/
theorem first_longest_cons :
    first? (.longest 0 p :: items) ⟨fresh, c :: cs⟩ =
      (if p c then (first? (.longest 0 p :: items) ⟨c == '\n', cs⟩).map (push c) else none).or
        ((first? items ⟨fresh, c :: cs⟩).map (capture [])) := by
  rw [first_longest, first_longest]
  simp only [runs, List.reverse_cons, List.findSome?_append, List.findSome?_singleton]
  by_cases hc : p c
  · simp only [hc, if_true, ← List.map_reverse, findSome_push]
    rfl
  · simp only [hc]
    rfl

/-- Before the least number of characters is reached, one more has to be taken. -/
theorem first_shortest_succ (least : Nat) :
    first? (.shortest (least + 1) p :: items) ⟨fresh, c :: cs⟩ =
      if p c then (first? (.shortest least p :: items) ⟨c == '\n', cs⟩).map (push c) else none := by
  rw [first_shortest, first_shortest]
  by_cases hc : p c <;> simp [runs, hc, findSome_push]

theorem first_longest_succ (least : Nat) :
    first? (.longest (least + 1) p :: items) ⟨fresh, c :: cs⟩ =
      if p c then (first? (.longest least p :: items) ⟨c == '\n', cs⟩).map (push c) else none := by
  rw [first_longest, first_longest]
  by_cases hc : p c <;> simp [runs, hc, ← List.map_reverse, findSome_push]

end

/-- At the end of the text a repetition takes nothing. -/
theorem first_shortest_nil (p : Char → Bool) (items : List Item) (fresh : Bool) :
    first? (.shortest 0 p :: items) ⟨fresh, []⟩ = (first? items ⟨fresh, []⟩).map (capture []) := by
  rw [first_shortest]
  simp [runs, behind]

theorem first_longest_nil (p : Char → Bool) (items : List Item) (fresh : Bool) :
    first? (.longest 0 p :: items) ⟨fresh, []⟩ = (first? items ⟨fresh, []⟩).map (capture []) := by
  rw [first_longest]
  simp [runs, behind]

/-- A character of a class without the line feed is no line feed. -/
theorem feed_ne {p : Char → Bool} {c : Char} (hfeed : p '\n' = false) (hc : p c = true) :
    (c == '\n') = false := by
  rw [beq_eq_false_iff_ne]
  rintro rfl
  rw [hfeed] at hc
  cases hc

/-- A text in a pattern without line feeds is taken off the front. -/
theorem first_literals {lits : Text} (hlits : '\n' ∉ lits) (items : List Item) (t : Text) :
    first? (lits.map .literal ++ items) ⟨false, t⟩ =
      (lits.isPrefixOf? t).bind fun rest => first? items ⟨false, rest⟩ := by
  induction lits generalizing t with
  | nil => rfl
  | cons c lits ih =>
    rw [List.mem_cons, not_or] at hlits
    rw [List.map_cons, List.cons_append, first_literal]
    cases t with
    | nil => rfl
    | cons d ds =>
      by_cases hdc : d = c
      · subst hdc
        have hfeed : (d == '\n') = false := by simpa using Ne.symm hlits.1
        simp only [Spot.skip?, if_true, hfeed, Option.bind_some, ih hlits.2]
        rw [Text.isPrefixOf?_cons, if_pos rfl]
      · rw [Text.isPrefixOf?_cons, if_neg (Ne.symm hdc)]
        simp [Spot.skip?, hdc]

section

variable {p : Char → Bool} {items : List Item}

/-- A longest repetition takes all the characters of its class, when the rest of the pattern
matches at none of them. -/
theorem first_longest_eq (hfeed : p '\n' = false)
    (hnone : ∀ c cs, p c = true → first? items ⟨false, c :: cs⟩ = none) (t : Text) :
    first? (.longest 0 p :: items) ⟨false, t⟩ =
      (first? items ⟨false, t.dropWhile p⟩).map (capture (t.takeWhile p)) := by
  induction t with
  | nil => exact first_longest_nil p items false
  | cons c cs ih =>
    rw [first_longest_cons]
    by_cases hc : p c
    · rw [if_pos hc, feed_ne hfeed hc, ih, hnone c cs hc, List.takeWhile_cons_of_pos hc,
        List.dropWhile_cons_of_pos hc, Option.map_map, Option.map_none, Option.or_none]
      rfl
    · rw [if_neg hc, Option.none_or, List.takeWhile_cons_of_neg hc,
        List.dropWhile_cons_of_neg hc]

/-- With at least one character to take, it matches nothing where there is none. -/
theorem first_longest_one_eq (hfeed : p '\n' = false)
    (hnone : ∀ c cs, p c = true → first? items ⟨false, c :: cs⟩ = none) (t : Text) :
    first? (.longest 1 p :: items) ⟨false, t⟩ =
      if t.takeWhile p = [] then none
      else (first? items ⟨false, t.dropWhile p⟩).map (capture (t.takeWhile p)) := by
  cases t with
  | nil => simp [first_longest, runs]
  | cons c cs =>
    rw [first_longest_succ]
    by_cases hc : p c
    · rw [if_pos hc, feed_ne hfeed hc, first_longest_eq hfeed hnone,
        List.takeWhile_cons_of_pos hc, List.dropWhile_cons_of_pos hc,
        if_neg (List.cons_ne_nil _ _), Option.map_map]
      rfl
    · rw [if_neg hc, List.takeWhile_cons_of_neg hc, if_pos rfl]

end

/-! ## Going back in a repetition -/

/-- A run of a class at the front of a text, such that the rest of a pattern matches behind it
and behind no longer run. -/
structure LongestRun (p : Char → Bool) (items : List Item) (t taken rest : Text) (m : Match) :
    Prop where
  split : t = taken ++ rest
  taken_all : ∀ c ∈ taken, p c = true
  behind : first? items ⟨false, rest⟩ = some m
  last : ∀ c cs, rest = c :: cs → p c = true → first? (.longest 0 p :: items) ⟨false, cs⟩ = none

section

variable {p : Char → Bool} {items : List Item}

theorem LongestRun.cons {c : Char} {cs taken rest : Text} {m : Match} (hc : p c = true)
    (h : LongestRun p items cs taken rest m) :
    LongestRun p items (c :: cs) (c :: taken) rest m where
  split := by rw [h.split, List.cons_append]
  taken_all := List.forall_mem_cons.2 ⟨hc, h.taken_all⟩
  behind := h.behind
  last := h.last

theorem LongestRun.tail {c d : Char} {cs taken rest : Text} {m : Match}
    (h : LongestRun p items (c :: cs) (d :: taken) rest m) :
    d = c ∧ p c = true ∧ LongestRun p items cs taken rest m := by
  obtain ⟨rfl, hcs⟩ := List.cons.inj h.split
  obtain ⟨hc, htaken⟩ := List.forall_mem_cons.1 h.taken_all
  exact ⟨rfl, hc, hcs, htaken, h.behind, h.last⟩

/-- A repetition takes the longest run of its class behind which the rest of the pattern
matches. -/
theorem first_longest_eq_some_iff (hfeed : p '\n' = false) {t : Text} {m : Match} :
    first? (.longest 0 p :: items) ⟨false, t⟩ = some m ↔
      ∃ taken rest m', m = capture taken m' ∧ LongestRun p items t taken rest m' := by
  induction t generalizing m with
  | nil =>
    rw [first_longest_nil, Option.map_eq_some_iff]
    constructor
    · rintro ⟨m', hm', rfl⟩
      exact ⟨[], [], m', rfl, rfl, List.forall_mem_nil _, hm', nofun⟩
    · rintro ⟨taken, rest, m', rfl, hrun⟩
      obtain ⟨rfl, rfl⟩ := List.append_eq_nil_iff.1 hrun.split.symm
      exact ⟨m', hrun.behind, rfl⟩
  | cons c cs ih =>
    rw [first_longest_cons, Option.or_eq_some_iff]
    constructor
    · rintro (hmore | ⟨hnone, hhere⟩)
      · obtain ⟨hc, hmore⟩ := Option.ite_none_right_eq_some.1 hmore
        rw [feed_ne hfeed hc, Option.map_eq_some_iff] at hmore
        obtain ⟨_, hfirst, rfl⟩ := hmore
        obtain ⟨taken, rest, m', rfl, hrun⟩ := ih.1 hfirst
        exact ⟨c :: taken, rest, m', rfl, hrun.cons hc⟩
      · obtain ⟨m', hm', rfl⟩ := Option.map_eq_some_iff.1 hhere
        refine ⟨[], c :: cs, m', rfl, rfl, List.forall_mem_nil _, hm', ?_⟩
        intro d ds heq hd
        obtain ⟨rfl, rfl⟩ := List.cons.inj heq
        rwa [if_pos hd, feed_ne hfeed hd, Option.map_eq_none_iff] at hnone
    · rintro ⟨taken, rest, m', rfl, hrun⟩
      cases taken with
      | nil =>
        obtain rfl : c :: cs = rest := hrun.split
        refine .inr ⟨?_, by rw [hrun.behind]; rfl⟩
        split
        · rename_i hc
          rw [feed_ne hfeed hc, hrun.last c cs rfl hc, Option.map_none]
        · rfl
      | cons d taken =>
        obtain ⟨rfl, hd, hrest⟩ := hrun.tail
        refine .inl ?_
        rw [if_pos hd, feed_ne hfeed hd, ih.2 ⟨taken, rest, m', rfl, hrest⟩]
        rfl

/-- With at least one character to take, the run is not empty. -/
theorem first_longest_one_eq_some_iff (hfeed : p '\n' = false) {fresh : Bool} {t : Text}
    {m : Match} :
    first? (.longest 1 p :: items) ⟨fresh, t⟩ = some m ↔
      ∃ taken rest m', taken ≠ [] ∧ m = capture taken m' ∧
        LongestRun p items t taken rest m' := by
  cases t with
  | nil =>
    have hnone : first? (.longest 1 p :: items) ⟨fresh, []⟩ = none := by
      rw [first_longest]
      rfl
    rw [hnone]
    constructor
    · nofun
    · rintro ⟨taken, rest, m', hne, -, hrun⟩
      exact absurd (List.append_eq_nil_iff.1 hrun.split.symm).1 hne
  | cons c cs =>
    rw [first_longest_succ]
    constructor
    · intro hmore
      obtain ⟨hc, hmore⟩ := Option.ite_none_right_eq_some.1 hmore
      rw [feed_ne hfeed hc, Option.map_eq_some_iff] at hmore
      obtain ⟨_, hfirst, rfl⟩ := hmore
      obtain ⟨taken, rest, m', rfl, hrun⟩ := (first_longest_eq_some_iff hfeed).1 hfirst
      exact ⟨c :: taken, rest, m', List.cons_ne_nil c taken, rfl, hrun.cons hc⟩
    · rintro ⟨taken, rest, m', hne, rfl, hrun⟩
      cases taken with
      | nil => exact absurd rfl hne
      | cons d taken =>
        obtain ⟨rfl, hd, hrest⟩ := hrun.tail
        rw [if_pos hd, feed_ne hfeed hd,
          (first_longest_eq_some_iff hfeed).2 ⟨taken, rest, m', rfl, hrest⟩]
        rfl

end

end Search

end FishCheck
