import FishCheck.Proofs.Discovery.Spellings
import FishCheck.Proofs.Path.Order
import Mathlib.Data.List.Permutation

/-!
# Finding files is a sorted union

Each argument stands for a set of paths, and finding files gives their union: every list of
components once, in ascending order.  Hence neither the order nor the number of the arguments
matters, the files of two argument lists together are merged from those of each, and a
relative argument may be spelled with `./` in front wherever the longer path is one that the
system still takes.

Main results:

- Theorem `expandAll_eq_error_iff`: the error is the first argument that names nothing.
- Theorem `mem_components_find`: the components that are found are those that the arguments
  stand for.
- Theorem `find_sorted_union`: finding files as a union of sets.
- Theorem `find_longest_here`: a path of the greatest length has no second spelling.
-/

namespace FishCheck

namespace Discovery

section Arguments

variable (t : Tree) (cwd : Location)

/-- An argument that names a file or a directory. -/
def Names (arg : Text) : Prop :=
  t.isFile cwd (Path.ofText arg) = true ∨ t.isDirectory cwd (Path.ofText arg) = true

/-- A path that an argument stands for: the path of a file itself, whatever its name, and
those entries below a directory that are files with the name of a fish file. -/
def StandsFor (arg : Text) (p : Path) : Prop :=
  (t.isFile cwd (Path.ofText arg) = true ∧ p = Path.ofText arg) ∨
    (t.isDirectory cwd (Path.ofText arg) = true ∧ p ∈ entries t cwd (Path.ofText arg) ∧
      t.isFile cwd p = true ∧
      ∃ stem ext, stem ≠ [] ∧ ext.map Path.lowerByte = Utf8.encode "fish" ∧
        p.fileName? = some (stem ++ Path.dot :: ext))

end Arguments

/-- Whether one list of components does not come behind another. -/
def inOrder (c d : List Path.Component) : Bool := Path.compareComponents c d != .gt

variable {t : Tree} {cwd : Location}

/-! ## One argument -/

/-- No path is both a file and a directory. -/
theorem isDirectory_of_isFile {p : Path} (h : t.isFile cwd p = true) :
    t.isDirectory cwd p = false := by
  unfold Tree.isFile at h
  unfold Tree.isDirectory
  split at h
  · rename_i hfind
    rw [hfind]
  · rename_i hfind
    rw [hfind]
  · cases h

theorem expand_eq_none_iff {arg : Text} :
    expand? t cwd (Path.ofText arg) = none ↔ ¬ Names t cwd arg := by
  unfold expand? Names
  split
  · simp_all
  · split <;> simp_all

theorem exists_expand_iff {arg : Text} :
    (∃ paths, expand? t cwd (Path.ofText arg) = some paths) ↔ Names t cwd arg := by
  rw [← Option.isSome_iff_exists, Option.isSome_iff_ne_none, ne_eq, expand_eq_none_iff, not_not]

/-- What an argument stands for, without a leading `./`. -/
theorem mem_expand_iff {arg : Text} {paths : List Path}
    (h : expand? t cwd (Path.ofText arg) = some paths) (p : Path) :
    p ∈ paths ↔ ∃ q, StandsFor t cwd arg q ∧ p = q.withoutCurrent := by
  unfold expand? at h
  split at h
  · rename_i hfile
    obtain rfl := Option.some.inj h
    have hdirectory := isDirectory_of_isFile hfile
    simp [StandsFor, hfile, hdirectory]
  · rename_i hfile
    split at h
    · rename_i hdirectory
      obtain rfl := Option.some.inj h
      simp only [List.mem_map, filesBelow, List.mem_filter, Bool.and_eq_true, isFishPath_iff,
        StandsFor, hfile, hdirectory, Bool.false_eq_true, false_and, false_or, true_and]
      constructor <;> rintro ⟨q, hq, rfl⟩ <;> exact ⟨q, hq, rfl⟩
    · cases h

/-- The components of what an argument stands for. -/
theorem mem_components_expand_iff {arg : Text} {paths : List Path}
    (h : expand? t cwd (Path.ofText arg) = some paths) (c : List Path.Component) :
    c ∈ paths.map Path.components ↔
      ∃ q, StandsFor t cwd arg q ∧ c = Path.dropCurrent q.components := by
  rw [List.mem_map]
  constructor
  · rintro ⟨p, hp, rfl⟩
    obtain ⟨q, hq, rfl⟩ := (mem_expand_iff h p).1 hp
    exact ⟨q, hq, Path.components_withoutCurrent q⟩
  · rintro ⟨q, hq, rfl⟩
    exact ⟨q.withoutCurrent, (mem_expand_iff h _).2 ⟨q, hq, rfl⟩,
      Path.components_withoutCurrent q⟩

/-! ## All arguments -/

/-- The error is the first argument that stands for nothing. -/
theorem expandAll_eq_error_iff {args : List Text} {arg : Text} :
    expandAll t cwd args = .error arg ↔
      args.find? (fun a => (expand? t cwd (Path.ofText a)).isNone) = some arg := by
  induction args with
  | nil => simp [expandAll]
  | cons first args ih =>
    rw [expandAll, List.find?_cons]
    cases expand? t cwd (Path.ofText first) with
    | none => simp
    | some paths =>
      have hmap : (expandAll t cwd args).map (paths ++ ·) = .error arg ↔
          expandAll t cwd args = .error arg := by
        cases expandAll t cwd args <;> simp [Except.map]
      simp [hmap, ih]

/-- Arguments that all name something stand for the paths of each. -/
theorem expandAll_of_named {args : List Text} (h : ∀ arg ∈ args, Names t cwd arg) :
    ∃ paths, expandAll t cwd args = .ok paths ∧
      ∀ p, p ∈ paths ↔ ∃ arg ∈ args, ∃ q, StandsFor t cwd arg q ∧ p = q.withoutCurrent := by
  induction args with
  | nil => exact ⟨[], rfl, by simp⟩
  | cons first args ih =>
    obtain ⟨hfirst, hargs⟩ := List.forall_mem_cons.1 h
    obtain ⟨paths, hpaths, hmem⟩ := ih hargs
    obtain ⟨mine, hmine⟩ := exists_expand_iff.2 hfirst
    refine ⟨mine ++ paths, ?_, fun p => ?_⟩
    · rw [expandAll, hmine, hpaths]
      rfl
    · rw [List.mem_append, mem_expand_iff hmine, hmem]
      simp

/-! ## Finding -/

/-- The error is the first argument that names nothing. -/
theorem find_eq_error_iff {args : List Text} {arg : Text} :
    find t cwd args = .error arg ↔
      ∃ front rest, args = front ++ arg :: rest ∧ (∀ a ∈ front, Names t cwd a) ∧
        ¬ Names t cwd arg := by
  have hexpand : find t cwd args = .error arg ↔ expandAll t cwd args = .error arg := by
    unfold find
    cases expandAll t cwd args <;> simp [Except.map]
  rw [hexpand, expandAll_eq_error_iff, List.find?_eq_some_iff_append]
  simp only [Option.isNone_iff_eq_none, expand_eq_none_iff, Bool.not_eq_true',
    Option.isNone_eq_false_iff, Option.isSome_iff_exists, exists_expand_iff]
  constructor
  · rintro ⟨hno, front, rest, hargs, hfront⟩
    exact ⟨front, rest, hargs, hfront, hno⟩
  · rintro ⟨front, rest, hargs, hfront, hno⟩
    exact ⟨hno, front, rest, hargs, hfront⟩

/-- Files are found exactly when every argument names something. -/
theorem exists_find_iff {args : List Text} :
    (∃ ps, find t cwd args = .ok ps) ↔ ∀ arg ∈ args, Names t cwd arg := by
  constructor
  · rintro ⟨ps, hps⟩ arg harg
    rw [← exists_expand_iff, ← Option.isSome_iff_exists, ← Option.isNone_eq_false_iff]
    refine Bool.eq_false_iff.2 fun hnone => ?_
    -- the first such argument would be the error
    have hsome : (args.find? fun a => (expand? t cwd (Path.ofText a)).isNone).isSome = true :=
      List.find?_isSome.2 ⟨arg, harg, hnone⟩
    obtain ⟨first, hfirst⟩ := Option.isSome_iff_exists.1 hsome
    rw [find, expandAll_eq_error_iff.2 hfirst] at hps
    cases hps
  · intro h
    obtain ⟨paths, hpaths, -⟩ := expandAll_of_named h
    exact ⟨sortPaths paths, by rw [find, hpaths]; rfl⟩

section Found

variable {args : List Text} {ps : List Path}

/-- What is found is sorted from what the arguments stand for. -/
theorem exists_paths_of_find (h : find t cwd args = .ok ps) :
    ∃ paths, ps = sortPaths paths ∧
      ∀ p, p ∈ paths ↔ ∃ arg ∈ args, ∃ q, StandsFor t cwd arg q ∧ p = q.withoutCurrent := by
  obtain ⟨paths, hpaths, hmem⟩ := expandAll_of_named (exists_find_iff.1 ⟨ps, h⟩)
  rw [find, hpaths] at h
  exact ⟨paths, (Except.ok.inj h).symm, hmem⟩

/-- Found paths go up strictly. -/
theorem ascending_find (h : find t cwd args = .ok ps) : Ascending Path.compare ps := by
  obtain ⟨paths, rfl, -⟩ := exists_paths_of_find h
  exact ascending_sortPaths paths

theorem ascending_components_find (h : find t cwd args = .ok ps) :
    Ascending Path.compareComponents (ps.map Path.components) :=
  List.pairwise_map.2 (ascending_find h)

/-- Every path that is found is one that an argument stands for, without a leading `./`. -/
theorem standsFor_of_mem_find (h : find t cwd args = .ok ps) {p : Path} (hp : p ∈ ps) :
    ∃ arg ∈ args, ∃ q, StandsFor t cwd arg q ∧ p = q.withoutCurrent := by
  obtain ⟨paths, rfl, hmem⟩ := exists_paths_of_find h
  exact (hmem p).1 (mem_of_mem_sortPaths hp)

/-- The components that are found are those that the arguments stand for. -/
theorem mem_components_find (h : find t cwd args = .ok ps) (c : List Path.Component) :
    c ∈ ps.map Path.components ↔
      ∃ arg ∈ args, ∃ q, StandsFor t cwd arg q ∧ c = Path.dropCurrent q.components := by
  obtain ⟨paths, rfl, hmem⟩ := exists_paths_of_find h
  rw [mem_components_sortPaths, List.mem_map]
  constructor
  · rintro ⟨p, hp, rfl⟩
    obtain ⟨arg, harg, q, hq, rfl⟩ := (hmem p).1 hp
    exact ⟨arg, harg, q, hq, Path.components_withoutCurrent q⟩
  · rintro ⟨arg, harg, q, hq, rfl⟩
    exact ⟨q.withoutCurrent, (hmem _).2 ⟨arg, harg, q, hq, rfl⟩,
      Path.components_withoutCurrent q⟩

/-- Arguments that are as many different ones, in whatever order and number, find the same
components. -/
theorem find_congr (h : find t cwd args = .ok ps) {args' : List Text}
    (hargs : ∀ a, a ∈ args' ↔ a ∈ args) :
    ∃ qs, find t cwd args' = .ok qs ∧ qs.map Path.components = ps.map Path.components := by
  have hnamed := exists_find_iff.1 ⟨ps, h⟩
  obtain ⟨qs, hqs⟩ := exists_find_iff.2 fun a ha => hnamed a ((hargs a).1 ha)
  refine ⟨qs, hqs, (ascending_components_find hqs).eq_of_mem_iff (ascending_components_find h)
    fun c => ?_⟩
  simp only [mem_components_find hqs, mem_components_find h, hargs]

/-- Merging what two argument lists find, and removing what comes twice, gives what both find
together. -/
theorem find_append (h : find t cwd args = .ok ps) {more : List Text} {qs : List Path}
    (hmore : find t cwd more = .ok qs) :
    ∃ rs, find t cwd (args ++ more) = .ok rs ∧ rs.map Path.components =
      ((ps.map Path.components).merge (qs.map Path.components) inOrder).eraseDups := by
  have hnamed := exists_find_iff.1 ⟨ps, h⟩
  have hmorenamed := exists_find_iff.1 ⟨qs, hmore⟩
  obtain ⟨rs, hrs⟩ := exists_find_iff.2
    fun a ha => (List.mem_append.1 ha).elim (hnamed a) (hmorenamed a)
  refine ⟨rs, hrs, (ascending_components_find hrs).eq_of_mem_iff (ascending_eraseDups ?_)
    fun c => ?_⟩
  · exact pairwise_merge_not_gt (ascending_components_find h) (ascending_components_find hmore)
  · simp only [List.mem_eraseDups, List.mem_merge, mem_components_find hrs,
      mem_components_find h, mem_components_find hmore, List.mem_append, or_and_right,
      exists_or]

end Found

/-! ## `./` in front -/

/-- The argument with `./` in front. -/
def here (arg : Text) : Text := "./" ++ arg

theorem ofText_here {arg : Text} (h : (Path.ofText arg).isAbsolute = false) :
    Path.ofText (here arg) = (Path.ofText arg).fromHere := by
  rw [Path.fromHere_of_relative h, here, Path.ofText, Utf8.encode_append]
  rfl

/-- What names something is not empty. -/
theorem ne_nil_of_names {arg : Text} (h : Names t cwd arg) : (Path.ofText arg).bytes ≠ [] := by
  intro hempty
  have hfind : t.find cwd (Path.ofText arg) = .error .missing := by
    rw [Tree.find, Tree.resolve, if_pos hempty]
    rfl
  simp [Names, Tree.isFile, Tree.isDirectory, hfind] at h

/-- A relative argument that names something stands for the same components with `./` in
front, as long as there is room. -/
theorem standsFor_here {arg : Text} (h : Names t cwd arg)
    (hrelative : (Path.ofText arg).isAbsolute = false) (hroom : HasRoom t cwd (Path.ofText arg)) :
    Names t cwd (here arg) ∧ ∀ c : List Path.Component,
      (∃ q, StandsFor t cwd (here arg) q ∧ c = Path.dropCurrent q.components) ↔
        ∃ q, StandsFor t cwd arg q ∧ c = Path.dropCurrent q.components := by
  obtain ⟨paths, hpaths⟩ := exists_expand_iff.2 h
  have hexpand := expand_fromHere (ne_nil_of_names h) hroom
  rw [← ofText_here hrelative, hpaths, Option.map_some] at hexpand
  obtain ⟨spelled, hspelled, hcomponents⟩ := Option.map_eq_some_iff.1 hexpand
  refine ⟨exists_expand_iff.1 ⟨spelled, hspelled⟩, fun c => ?_⟩
  rw [← mem_components_expand_iff hspelled, hcomponents, mem_components_expand_iff hpaths]

/-- A relative argument may be spelled with `./` in front, as long as there is room. -/
theorem find_here {front rest : List Text} {arg : Text} {ps : List Path}
    (h : find t cwd (front ++ arg :: rest) = .ok ps)
    (hrelative : (Path.ofText arg).isAbsolute = false) (hroom : HasRoom t cwd (Path.ofText arg)) :
    ∃ qs, find t cwd (front ++ here arg :: rest) = .ok qs ∧
      qs.map Path.components = ps.map Path.components := by
  have hnamed := exists_find_iff.1 ⟨ps, h⟩
  obtain ⟨hhere, hsame⟩ := standsFor_here (hnamed arg (by simp)) hrelative hroom
  obtain ⟨qs, hqs⟩ : ∃ qs, find t cwd (front ++ here arg :: rest) = .ok qs := by
    refine exists_find_iff.2 fun a ha => ?_
    rcases List.mem_append.1 ha with ha | ha
    · exact hnamed a (List.mem_append_left _ ha)
    · rcases List.mem_cons.1 ha with rfl | ha
      · exact hhere
      · exact hnamed a (List.mem_append_right _ (List.mem_cons_of_mem _ ha))
  refine ⟨qs, hqs, (ascending_components_find hqs).eq_of_mem_iff (ascending_components_find h)
    fun c => ?_⟩
  simp only [mem_components_find hqs, mem_components_find h, List.mem_append, List.mem_cons,
    or_and_right, exists_or, exists_eq_left, hsame]

/-! ## The result -/

/-- Finding files is a sorted union.  It fails exactly when an argument names nothing, with
the first such argument.  Otherwise the paths go up strictly, each is one that an argument
stands for, and their components are those of all that the arguments stand for, without a
leading `.`.  So arguments that differ in order and number alone find the same components;
two argument lists together find what is merged from both; and so does an argument with `./`
in front, as long as there is room. -/
theorem find_sorted_union (t : Tree) (cwd : Location) (args : List Text) :
    (∀ arg, find t cwd args = .error arg ↔
      ∃ front rest, args = front ++ arg :: rest ∧ (∀ a ∈ front, Names t cwd a) ∧
        ¬ Names t cwd arg) ∧
    ((∃ ps, find t cwd args = .ok ps) ↔ ∀ arg ∈ args, Names t cwd arg) ∧
    ∀ ps, find t cwd args = .ok ps →
      ps.Pairwise (fun p q => p.compare q = .lt) ∧
      (∀ p ∈ ps, ∃ arg ∈ args, ∃ q, StandsFor t cwd arg q ∧ p = q.withoutCurrent) ∧
      (∀ c, c ∈ ps.map Path.components ↔
        ∃ arg ∈ args, ∃ q, StandsFor t cwd arg q ∧ c = Path.dropCurrent q.components) ∧
      (∀ args', (∀ a, a ∈ args' ↔ a ∈ args) →
        ∃ qs, find t cwd args' = .ok qs ∧ qs.map Path.components = ps.map Path.components) ∧
      (∀ more qs, find t cwd more = .ok qs →
        ∃ rs, find t cwd (args ++ more) = .ok rs ∧ rs.map Path.components =
          ((ps.map Path.components).merge (qs.map Path.components) inOrder).eraseDups) ∧
      (∀ front arg rest, args = front ++ arg :: rest →
        (Path.ofText arg).isAbsolute = false → HasRoom t cwd (Path.ofText arg) →
        ∃ qs, find t cwd (front ++ here arg :: rest) = .ok qs ∧
          qs.map Path.components = ps.map Path.components) := by
  refine ⟨fun arg => find_eq_error_iff, exists_find_iff, fun ps h => ⟨ascending_find h,
    fun p => standsFor_of_mem_find h, mem_components_find h, fun args' => find_congr h,
    fun more qs hmore => find_append h hmore, ?_⟩⟩
  rintro front arg rest rfl hrelative hroom
  exact find_here h hrelative hroom

/-- A directory with a fish file and another file. -/
def shelf : Tree :=
  ⟨⟨[([Utf8.encode "d"], .directory), ([Utf8.encode "d", Utf8.encode "a.fish"], .file [] false),
    ([Utf8.encode "d", Utf8.encode "b"], .file [] false)]⟩⟩

theorem isFile_shelf : shelf.isFile [] (Path.ofText "d/a.fish") = true := by cbv

/-- Of the two entries of the directory one is a fish file. -/
theorem filesBelow_shelf :
    filesBelow shelf [] (Path.ofText "d") = [Path.ofText "d/a.fish"] := by
  have hentries : entries shelf [] (Path.ofText "d") =
      [Path.ofText "d/a.fish", Path.ofText "d/b"] := by cbv
  have hfish : isFishPath "d/a.fish" = true := by decide +kernel
  have hother : isFishPath "d/b" = false := by decide +kernel
  rw [filesBelow, hentries]
  simp only [List.filter_cons, isFile_shelf, hfish, hother, Bool.and_false, Bool.and_self,
    List.filter_nil, if_true, Bool.false_eq_true, if_false]

/-- What the arguments stand for, each on its own. -/
theorem expandAll_shelf : expandAll shelf [] ["d//b", "d", "./d/a.fish"] =
    .ok ["d//b", "d/a.fish", "d/a.fish"] := by
  have hfile : shelf.isFile [] (Path.ofText "d//b") = true := by cbv
  have hnone : shelf.isFile [] (Path.ofText "d") = false := by cbv
  have hdirectory : shelf.isDirectory [] (Path.ofText "d") = true := by cbv
  have hdotted : shelf.isFile [] (Path.ofText "./d/a.fish") = true := by cbv
  have hfirst : expand? shelf [] (Path.ofText "d//b") = some [("d//b" : Path)] := by
    rw [expand?, if_pos hfile]
    decide +kernel
  have hsecond : expand? shelf [] (Path.ofText "d") = some [("d/a.fish" : Path)] := by
    rw [expand?, hnone, if_neg (by decide), if_pos hdirectory, filesBelow_shelf]
    decide +kernel
  have hthird : expand? shelf [] (Path.ofText "./d/a.fish") = some [("d/a.fish" : Path)] := by
    rw [expand?, if_pos hdotted]
    decide +kernel
  simp only [expandAll, hfirst, hsecond, hthird]
  rfl

/-- A directory, a file in it and another spelling of a file found before are united. -/
theorem find_sorted_union_of_shelf :
    find shelf [] ["d//b", "d", "./d/a.fish"] = .ok ["d/a.fish", "d//b"] ∧
      (∃ qs, find shelf [] ["d", "d//b", "./d/a.fish", "d"] = .ok qs ∧
        qs.map Path.components = ["d/a.fish", "d//b"].map Path.components) ∧
      ∃ qs, find shelf [] ["d//b", "./d", "./d/a.fish"] = .ok qs ∧
        qs.map Path.components = ["d/a.fish", "d//b"].map Path.components := by
  have hfind : find shelf [] ["d//b", "d", "./d/a.fish"] = .ok ["d/a.fish", "d//b"] := by
    have hsorted : sortPaths ["d//b", "d/a.fish", "d/a.fish"] =
        [Path.ofText "d/a.fish", Path.ofText "d//b"] := by cbv
    rw [find, expandAll_shelf, Except.map, hsorted]
  obtain ⟨-, -, h⟩ := find_sorted_union shelf [] ["d//b", "d", "./d/a.fish"]
  obtain ⟨-, -, -, hcongr, -, hhere⟩ := h _ hfind
  have hroom : HasRoom shelf [] (Path.ofText "d") := by
    rw [HasRoom, filesBelow_shelf]
    decide +kernel
  refine ⟨hfind, hcongr _ fun a => ?_, hhere ["d//b"] "d" ["./d/a.fish"] rfl rfl hroom⟩
  simp only [List.mem_cons, List.not_mem_nil, or_false]
  tauto

/-! ## The longest path -/

/-- A spelling of `d/a.fish` with more slashes, as long as a path may be. -/
def longest : Text := "d" ++ (List.replicate 4088 '/' ++ "a.fish")

theorem bytes_longest : (Path.ofText longest).bytes =
    Utf8.encode "d" ++ (List.replicate 4088 Path.slash ++ Utf8.encode "a.fish") := by
  have hslashes (n : Nat) : Utf8.encode (List.replicate n '/') = List.replicate n Path.slash := by
    induction n with
    | zero => rfl
    | succ n ih =>
      rw [List.replicate_succ, List.replicate_succ, ← ih]
      rfl
  rw [Path.ofText, longest, Utf8.encode_append, Utf8.encode_append, hslashes]

theorem length_longest : (Path.ofText longest).bytes.length = Tree.maxPath := by
  have hd : (Utf8.encode "d").length = 1 := by decide
  have hname : (Utf8.encode "a.fish").length = 6 := by decide
  rw [bytes_longest, List.length_append, List.length_append, List.length_replicate, hd, hname]
  rfl

/-- A relative path of the greatest length names a file, and none with `./` in front. -/
theorem find_longest_here :
    (∃ ps, find shelf [] [longest] = .ok ps) ∧ (Path.ofText longest).isAbsolute = false ∧
      find shelf [] [here longest] = .error (here longest) := by
  have hrelative : (Path.ofText longest).isAbsolute = false := rfl
  have hfind : shelf.find [] (Path.ofText longest) = shelf.find [] (Path.ofText "d/a.fish") :=
    Tree.find_of_slashes (n := 4087) bytes_longest (Nat.le_of_eq length_longest)
  have hlong : Tree.maxPath < (Path.ofText (here longest)).bytes.length := by
    rw [ofText_here hrelative, Path.fromHere_of_relative hrelative, List.length_cons,
      List.length_cons, length_longest]
    omega
  refine ⟨exists_find_iff.2 ?_, hrelative, find_eq_error_iff.2 ⟨[], [], rfl, by simp, ?_⟩⟩
  · intro arg harg
    rw [List.mem_singleton.1 harg, Names, Tree.isFile, hfind]
    exact .inl isFile_shelf
  · rintro (h | h)
    · rw [Tree.isFile_of_long hlong] at h
      cases h
    · rw [Tree.isDirectory_of_long hlong] at h
      cases h

end Discovery

end FishCheck
