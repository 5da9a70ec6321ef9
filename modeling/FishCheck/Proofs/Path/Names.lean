import FishCheck.Proofs.Url.FilePaths

/-!
# Names along a path

A path is spelled by names between slashes; empty names and single dots are spelling only.
For absolute paths the list of the other names says as much as the components do, and it is
easier to follow: a text behind a slash adds its names, and so does a relative path that is
joined.  A path lies below a directory when it starts with the directory's names.

Main results:

- Theorem `components_eq_iff`: absolute paths have the same components exactly when they
  have the same names.
- Theorems `names_below` and `names_join`: what follows a slash, or is joined, adds its names.
- Theorem `samePlace_iff_toText`: absolute paths have the same names exactly when their
  file URLs are written alike.
-/

namespace FishCheck

namespace Path

/-! ## Names and components -/

/-- The names along a path: its bytes between slashes, without empty ones and single dots. -/
def names (p : Path) : List Bytes :=
  (p.bytes.splitOn slash).filter fun s => s ≠ [] ∧ s ≠ [dot]

/-- Segments are the stretches between slashes. -/
theorem splitSlashes_eq_splitOn (bs : Bytes) : splitSlashes bs = bs.splitOn slash := by
  induction bs with
  | nil => rfl
  | cons b bs ih =>
    rw [List.splitOn_cons_eq_if_modifyHead, splitSlashes, ih]
    by_cases hb : b = slash
    · simp [hb]
    · cases hbs : bs.splitOn slash with
      | nil => exact absurd hbs (List.splitOn_ne_nil _ _)
      | cons s ss => simp [hb]

/-- A segment that is more than spelling is spelled by its component. -/
theorem map_bytes_component (s : Bytes) :
    (component? s).map Component.bytes = if s ≠ [] ∧ s ≠ [dot] then some s else none := by
  unfold component?
  by_cases hskip : s = [] ∨ s = [dot]
  · rw [if_pos hskip, if_neg (fun hkeep => hskip.elim hkeep.1 hkeep.2)]
    rfl
  · rw [if_neg hskip, if_pos (not_or.1 hskip)]
    split
    · rename_i hparent
      rw [hparent]
      rfl
    · rfl

/-- The names of a path spell its components behind the root. -/
theorem names_eq (p : Path) : p.names = p.behindRoot.map Component.bytes := by
  rw [names, behindRoot, List.map_filterMap, splitSlashes_eq_splitOn, ← List.filterMap_eq_filter]
  refine List.filterMap_congr fun s _ => ?_
  rw [map_bytes_component]
  simp [Option.guard]

/-- The components of a path behind the root are read from its names. -/
theorem behindRoot_eq (p : Path) : p.behindRoot = p.names.filterMap component? := by
  rw [names_eq, List.filterMap_map]
  calc p.behindRoot
    _ = p.behindRoot.filterMap some := List.filterMap_some.symm
    _ = p.behindRoot.filterMap (component? ∘ Component.bytes) :=
      List.filterMap_congr fun c hc => (component_bytes_of_mem hc).symm

/-- Absolute paths have the same components exactly when they have the same names. -/
theorem components_eq_iff {p q : Path} (hp : p.isAbsolute = true) (hq : q.isAbsolute = true) :
    p.components = q.components ↔ p.names = q.names := by
  rw [components_of_isAbsolute hp, components_of_isAbsolute hq, List.cons.injEq]
  constructor
  · rintro ⟨-, hbehind⟩
    rw [names_eq, names_eq, hbehind]
  · intro hnames
    rw [behindRoot_eq, behindRoot_eq, hnames]
    exact ⟨rfl, rfl⟩

/-! ## Longer paths -/

/-- The path that bytes spell behind a directory and a slash. -/
def below (p : Path) (bs : Bytes) : Path := ⟨p.bytes ++ slash :: bs⟩

/-- What follows a slash adds its names. -/
theorem names_below (p : Path) (bs : Bytes) : (p.below bs).names = p.names ++ names ⟨bs⟩ := by
  rw [names, below, List.splitOn_append_cons_self, List.filter_append]
  rfl

/-- A slash at the end adds no name. -/
theorem names_concat_slash (p : Path) : (p.below []).names = p.names := by
  rw [names_below]
  exact List.append_nil _

/-- A path that goes on behind an absolute one is absolute. -/
theorem isAbsolute_append {p : Path} (h : p.isAbsolute = true) (bs : Bytes) :
    isAbsolute ⟨p.bytes ++ bs⟩ = true := by
  obtain ⟨rest, hbytes⟩ := List.head?_eq_some_iff.1 (beq_iff_eq.1 h)
  rw [isAbsolute, hbytes]
  rfl

/-- A relative path that is joined adds its names. -/
theorem names_join (p : Path) {q : Path} (h : q.isAbsolute = false) :
    (p.join q).names = p.names ++ q.names := by
  rw [join, if_neg (by rw [h]; exact Bool.false_ne_true)]
  split
  · rename_i hends
    rcases List.eq_nil_or_concat p.bytes with hempty | ⟨front, b, hbytes⟩
    · rw [hempty, List.nil_append]
      have hnames : p.names = [] := by rw [names, hempty]; rfl
      rw [hnames, List.nil_append]
    · -- the slash that ends the left side is the one that the right side follows
      rw [List.concat_eq_append] at hbytes
      obtain rfl : b = slash := by simpa [hbytes] using hends
      have hjoined : (⟨p.bytes ++ q.bytes⟩ : Path) = below ⟨front⟩ q.bytes := by
        rw [below, hbytes, List.append_assoc]
        rfl
      have hp : p = below ⟨front⟩ [] := by
        rw [below, ← hbytes]
      rw [hjoined, names_below, hp, names_concat_slash]
  · have hjoined : (⟨p.bytes ++ [slash] ++ q.bytes⟩ : Path) = p.below q.bytes := by
      rw [below, List.append_assoc]
      rfl
    rw [hjoined, names_below]

/-- Joining to an absolute path gives an absolute path. -/
theorem isAbsolute_join {p : Path} (h : p.isAbsolute = true) (q : Path) :
    (p.join q).isAbsolute = true := by
  unfold join
  split
  · assumption
  · split
    · exact isAbsolute_append h q.bytes
    · rw [List.append_assoc]
      exact isAbsolute_append h _

/-! ## Places -/

/-- Two absolute paths with the same names. -/
def SamePlace (p q : Path) : Prop :=
  p.isAbsolute = true ∧ q.isAbsolute = true ∧ p.names = q.names

instance (p q : Path) : Decidable (p.SamePlace q) :=
  inferInstanceAs (Decidable (p.isAbsolute = true ∧ q.isAbsolute = true ∧ p.names = q.names))

/-- An absolute path that starts with the names of a directory. -/
def Within (directory p : Path) : Prop :=
  p.isAbsolute = true ∧ directory.names <+: p.names

instance (directory p : Path) : Decidable (directory.Within p) :=
  inferInstanceAs (Decidable (p.isAbsolute = true ∧ directory.names <+: p.names))

/-- What a directory and a slash stand before lies in the directory. -/
theorem within_below {directory : Path} (h : directory.isAbsolute = true) (bs : Bytes) :
    directory.Within (directory.below bs) := by
  refine ⟨isAbsolute_append h _, ?_⟩
  rw [names_below]
  exact List.prefix_append _ _

/-- A path lies where every path at the same place does. -/
theorem SamePlace.within_iff {directory p q : Path} (h : p.SamePlace q) :
    directory.Within p ↔ directory.Within q := by
  obtain ⟨hp, hq, hnames⟩ := h
  simp only [Within, hp, hq, hnames]

/-- Absolute paths have the same names exactly when their file URLs are written alike. -/
theorem samePlace_iff_toText (p q : Path) :
    p.SamePlace q ↔
      ∃ u v, Url.ofPath? p = some u ∧ Url.ofPath? q = some v ∧ u.toText = v.toText := by
  constructor
  · rintro ⟨hp, hq, hnames⟩
    have hurls := (Url.ofPath_eq_ofPath_iff hp hq).2 ((components_eq_iff hp hq).2 hnames)
    have hurl := Url.ofPath_of_isAbsolute hp
    exact ⟨_, _, hurl, hurls ▸ hurl, rfl⟩
  · rintro ⟨u, v, hu, hv, htext⟩
    obtain ⟨hp, hup⟩ := Url.toText_of_ofPath hu
    obtain ⟨hq, hvq⟩ := Url.toText_of_ofPath hv
    have hpath : Url.writeComponents p.behindRoot = Url.writeComponents q.behindRoot := by
      rw [hup, hvq] at htext
      exact List.append_cancel_left htext
    have hurls : Url.ofPath? p = Url.ofPath? q := by
      rw [Url.ofPath_of_isAbsolute hp, Url.ofPath_of_isAbsolute hq, hpath]
    exact ⟨hp, hq, (components_eq_iff hp hq).1 ((Url.ofPath_eq_ofPath_iff hp hq).1 hurls)⟩

end Path

end FishCheck
