import FishCheck.Proofs.Complaint.Identity

/-!
# Complaints about files in the home directory

The checker may write `~` for the home directory.  Expanding it joins what follows to the
home directory, and a join follows its right side alone when that starts at the root.  So
the expanded path lies in the home directory, and is the one that the name spells there,
exactly as long as no second slash follows the first one.

Main results:

- Theorem `expandHome_tilde`: a `~` before a slash is a join with the home directory.
- Theorem `samePlace_expandHome`: when the expanded path is the one below the home directory.
- Theorem `expandHome_exact`: what is expanded to which path, and which documents it names.
-/

namespace FishCheck

namespace Path

/-- A text spells an absolute path exactly when it starts with a slash. -/
theorem isAbsolute_ofText_iff {t : Text} : (ofText t).isAbsolute = true ↔ t.head? = some '/' := by
  refine ⟨head_of_isAbsolute, fun h => ?_⟩
  obtain ⟨rest, rfl⟩ := List.head?_eq_some_iff.1 h
  rfl

end Path

namespace Complaint

/-- A `~` alone is the home directory. -/
theorem expandHome_alone (home : Path) : expandHome "~" (some home) = home := by
  simp [expandHome]

/-- A `~` before a slash is a join with the home directory. -/
theorem expandHome_tilde (home : Path) (rest : Text) :
    expandHome ('~' :: '/' :: rest) (some home) = home.join (Path.ofText rest) := by
  simp [expandHome]

section Expansion

variable {home : Path} {rest : Text}

/-- What follows the slash replaces the home directory when it starts at the root. -/
theorem expandHome_of_slash (h : rest.head? = some '/') (home : Path) :
    expandHome ('~' :: '/' :: rest) (some home) = Path.ofText rest := by
  rw [expandHome_tilde, Path.join_absolute (Path.isAbsolute_ofText_iff.2 h)]

/-- The expanded path is the one below the home directory, unless a second slash follows the
first one; below the root it is so even then. -/
theorem samePlace_expandHome (habsolute : home.isAbsolute = true)
    (h : rest.head? ≠ some '/' ∨ home.names = []) :
    (expandHome ('~' :: '/' :: rest) (some home)).SamePlace (home.below (Utf8.encode rest)) := by
  have hbelow : (home.below (Utf8.encode rest)).isAbsolute = true :=
    Path.isAbsolute_append habsolute _
  by_cases hslash : rest.head? = some '/'
  · have hroot : home.names = [] := h.resolve_left (fun hrelative => hrelative hslash)
    rw [expandHome_of_slash hslash]
    refine ⟨Path.isAbsolute_ofText_iff.2 hslash, hbelow, ?_⟩
    rw [Path.names_below, hroot, List.nil_append]
    rfl
  · have hrelative : (Path.ofText rest).isAbsolute = false :=
      Bool.eq_false_iff.2 fun hrest => hslash (Path.isAbsolute_ofText_iff.1 hrest)
    rw [expandHome_tilde]
    refine ⟨Path.isAbsolute_join habsolute _, hbelow, ?_⟩
    rw [Path.names_join home hrelative, Path.names_below]
    rfl

/-- Behind a second slash the names of the home directory are lost, so the expanded path is
another one unless there are none. -/
theorem not_samePlace_expandHome (hslash : rest.head? = some '/') (hnames : home.names ≠ []) :
    ¬ (expandHome ('~' :: '/' :: rest) (some home)).SamePlace (home.below (Utf8.encode rest)) := by
  rintro ⟨-, -, hsame⟩
  rw [expandHome_of_slash hslash, Path.names_below] at hsame
  exact hnames (List.self_eq_append_left.1 hsame)

end Expansion

/-- A name behind `~` and a slash is expanded to the path that it spells in the home directory
exactly when it does not start with a slash itself, or the home directory is the root.  The
expanded path then lies in the home directory, and a complaint of that name is read for the
path and for no document elsewhere; otherwise it is the path that the name spells alone.  A
`~` alone is the home directory, and any other name stays as it is. -/
theorem expandHome_exact (home : Path) (habsolute : home.isAbsolute = true) (rest : Text) :
    ((expandHome ('~' :: '/' :: rest) (some home)).components =
        (home.below (Utf8.encode rest)).components ↔
      rest.head? ≠ some '/' ∨ home.names = []) ∧
    (rest.head? ≠ some '/' ∨ home.names = [] →
      home.Within (expandHome ('~' :: '/' :: rest) (some home)) ∧
      ∀ (output : Text) (c : Complaint), c ∈ readAll output → c.file = '~' :: '/' :: rest →
        c ∈ readFor output (home.below (Utf8.encode rest)) (some home) ∧
        ∀ document, c ∈ readFor output document (some home) → home.Within document) ∧
    (rest.head? = some '/' →
      expandHome ('~' :: '/' :: rest) (some home) = Path.ofText rest) ∧
    expandHome "~" (some home) = home ∧
    ∀ (file : Text) (home? : Option Path), file ≠ "~" → ¬ "~/".toList <+: file →
      ¬ "~\\".toList <+: file → expandHome file home? = Path.ofText file := by
  refine ⟨?_, fun hstays => ?_, fun hslash => expandHome_of_slash hslash home,
    expandHome_alone home, fun file home? halone hslash hback =>
      expandHome_of_other halone hslash hback home?⟩
  · constructor
    · intro hcomponents
      by_contra hleaves
      obtain ⟨hslash, hnames⟩ := not_or.1 hleaves
      have hrest := not_not.1 hslash
      have hexpanded : (expandHome ('~' :: '/' :: rest) (some home)).isAbsolute = true := by
        rw [expandHome_of_slash hrest]
        exact Path.isAbsolute_ofText_iff.2 hrest
      have hbelow := (Path.within_below habsolute (Utf8.encode rest)).1
      exact not_samePlace_expandHome hrest hnames
        ⟨hexpanded, hbelow, (Path.components_eq_iff hexpanded hbelow).1 hcomponents⟩
    · intro hstays
      obtain ⟨hexpanded, hbelow, hnames⟩ := samePlace_expandHome habsolute hstays
      exact (Path.components_eq_iff hexpanded hbelow).2 hnames
  · have hsame := samePlace_expandHome habsolute hstays
    have hbelow := Path.within_below habsolute (Utf8.encode rest)
    refine ⟨hsame.within_iff.2 hbelow, fun output c hc hfile => ?_⟩
    have hpath : (c.path (some home)).SamePlace (home.below (Utf8.encode rest)) := by
      rw [path, hfile]
      exact hsame
    refine ⟨mem_readFor_iff.2 ⟨hc, hpath⟩, fun document hdocument => ?_⟩
    obtain ⟨-, hplace⟩ := mem_readFor_iff.1 hdocument
    exact hplace.within_iff.1 (hpath.within_iff.2 hbelow)

/-- A home directory with a slash at its end and a name that climbs out of it and ends in one:
the expanded path keeps the names of both.  A name with a second slash and one of another
user's home directory are at hand as well. -/
theorem expandHome_exact_climbing :
    let home : Path := "/home/./me/"
    let rest : Text := "../%7E\\é/"
    let c : Complaint := ⟨'~' :: '/' :: rest, 3, "oops"⟩
    home.isAbsolute = true ∧ (rest.head? ≠ some '/' ∨ home.names = []) ∧
      (expandHome c.file (some home)).components = (home.below (Utf8.encode rest)).components ∧
      home.Within (expandHome c.file (some home)) ∧ c ∈ readAll c.toLine ∧
      c ∈ readFor c.toLine (home.below (Utf8.encode rest)) (some home) ∧
      c ∈ readFor c.toLine "/home/me/../%7E\\é" (some home) ∧ home.Within "/home/me/../%7E\\é" ∧
      expandHome "~//etc" (some home) = Path.ofText "/etc" ∧
      expandHome "~other/x" (some home) = Path.ofText "~other/x" := by
  intro home rest c
  have habsolute : home.isAbsolute = true := by decide +kernel
  have hstays : rest.head? ≠ some '/' ∨ home.names = [] := by decide +kernel
  obtain ⟨hcomponents, hkept, -, -, hothers⟩ := expandHome_exact home habsolute rest
  obtain ⟨-, -, hleft, -, -⟩ := expandHome_exact home habsolute "/etc"
  have hread : c ∈ readAll c.toLine := by decide +kernel
  have hplain : c ∈ readFor c.toLine "/home/me/../%7E\\é" (some home) := by decide +kernel
  obtain ⟨hwithin, hreadFor⟩ := hkept hstays
  obtain ⟨hown, helsewhere⟩ := hreadFor c.toLine c hread rfl
  exact ⟨habsolute, hstays, hcomponents.2 hstays, hwithin, hread, hown, hplain,
    helsewhere _ hplain, hleft (by decide +kernel),
    hothers "~other/x" (some home) (by decide) (by decide) (by decide)⟩

/-- Behind a second slash the home directory is left: the expanded path is not the one that the
name spells there, and a complaint of that name is read for a document elsewhere instead. -/
theorem expandHome_leaves :
    let home : Path := "/home/me"
    let rest : Text := "/etc/x.fish"
    let c : Complaint := ⟨'~' :: '/' :: rest, 1, "oops"⟩
    home.isAbsolute = true ∧ '\x00' ∉ rest ∧ c ∈ readAll c.toLine ∧
      (expandHome c.file (some home)).components ≠ (home.below (Utf8.encode rest)).components ∧
      ¬ home.Within (expandHome c.file (some home)) ∧
      readFor c.toLine (home.below (Utf8.encode rest)) (some home) = [] ∧
      readFor c.toLine "/etc/x.fish" (some home) = [c] ∧ ¬ home.Within "/etc/x.fish" := by
  decide +kernel

end Complaint

end FishCheck
