import FishCheck.Command.Basic
import FishCheck.Discovery
import FishCheck.Proofs.Command.StandardInput
import FishCheck.Proofs.Host.Names
import Mathlib.Data.List.Basic

/-!
# What a selection depends on

Which files a command works on, and under which settings, is read off the tree.  It depends
on the shape of the tree and on the contents of few files: the settings file and the ignore
files.  A command that leaves those alone finds the same files and settings when it runs
again.

Main results:

- Theorem `Discovery.find_eq_of_shape`: trees of one shape with the same ignore files give
  the same files.
- Theorem `Discovery.find_of_files`: arguments that name files stand for these files.
- Theorem `Command.resolve_eq_of_shape`: trees of one shape with the same settings file give
  the same settings.
- Theorem `Command.same_start`: changing files that steer nothing changes neither.
-/

namespace FishCheck

namespace Discovery

section SameRules

variable {t t' : Tree}

/-- Trees with the same ignore files in a directory have the same rules there. -/
theorem layerAt_eq {l : Location}
    (hrules : ∀ name ∈ ruleFiles, t'.read l name = t.read l name) :
    layerAt t' l = layerAt t l := by
  unfold layerAt
  congr 1
  exact List.map_congr_left fun name hname => by rw [hrules name hname]

/-- What is made of the entries of a directory, as far as it does not depend on contents, is
the same in trees of one shape. -/
theorem flatMap_children_eq {α : Type} {f : Bytes × Node → List α} {l : Location}
    (hshape : t'.shape = t.shape) (hf : ∀ name n, f (name, n.shape) = f (name, n)) :
    (t'.children l).flatMap f = (t.children l).flatMap f := by
  have hforget (u : Tree) : (u.children l).flatMap f = (u.shape.children l).flatMap f := by
    rw [Tree.children_shape, List.flatMap_map]
    exact List.flatMap_congr fun e _ => (hf e.1 e.2).symm
  rw [hforget t', hshape, ← hforget t]

/-- Trees of one shape with the same ignore files are walked alike. -/
theorem walk_eq_of_shape (hshape : t'.shape = t.shape)
    (hlayers : ∀ l, layerAt t' l = layerAt t l) (fuel : Nat) (layers : List Layer)
    (l : Location) (spelled : Path) :
    walk t' fuel layers l spelled = walk t fuel layers l spelled := by
  induction fuel generalizing layers l spelled with
  | zero => rfl
  | succ fuel ih =>
    simp only [walk, ih, hlayers]
    refine flatMap_children_eq hshape fun name n => ?_
    simp only [Node.shape_eq_directory_iff]

theorem entries_eq_of_shape (hshape : t'.shape = t.shape)
    (hlayers : ∀ l, layerAt t' l = layerAt t l) (cwd : Location) (p : Path) :
    entries t' cwd p = entries t cwd p := by
  have hlength : t'.nodes.pairs.length = t.nodes.pairs.length := by
    simpa [Tree.shape] using congrArg (fun u : Tree => u.nodes.pairs.length) hshape
  have hdirectory (u : Tree) (l : Location) :
      u.find cwd p = .ok (l, .directory) ↔ u.shape.find cwd p = .ok (l, .directory) := by
    rw [Tree.find_shape]
    cases u.find cwd p with
    | error f => simp [Except.map]
    | ok e => simp [Except.map, Prod.ext_iff, Node.shape_eq_directory_iff]
  have hsame (l : Location) :
      t'.find cwd p = .ok (l, .directory) ↔ t.find cwd p = .ok (l, .directory) := by
    rw [hdirectory t', hshape, ← hdirectory t]
  have habove (l : Location) : layersAbove t' l = layersAbove t l := by
    simp only [layersAbove, hlayers]
  unfold entries
  split
  · rename_i l hfind
    rw [(hsame l).1 hfind]
    simp only [walk_eq_of_shape hshape hlayers, habove, hlength]
  · rename_i hno
    split
    · rename_i l hfind
      exact absurd ((hsame l).2 hfind) (hno l)
    · rfl

/-- Trees of one shape with the same ignore files give the same files. -/
theorem find_eq_of_shape (hshape : t'.shape = t.shape)
    (hrules : ∀ l, ∀ name ∈ ruleFiles, t'.read l name = t.read l name) (cwd : Location)
    (args : List Text) : find t' cwd args = find t cwd args := by
  have hexpand (p : Path) : expand? t' cwd p = expand? t cwd p := by
    have hentries := entries_eq_of_shape hshape (fun l => layerAt_eq (hrules l)) cwd p
    have hdirectory : t'.isDirectory cwd p = t.isDirectory cwd p := by
      rw [← Tree.isDirectory_shape t', hshape, Tree.isDirectory_shape]
    simp only [expand?, filesBelow, hentries, hdirectory, Tree.isFile_eq_of_shape hshape]
  have hexpandAll : expandAll t' cwd args = expandAll t cwd args := by
    induction args with
    | nil => rfl
    | cons arg args ih => rw [expandAll, expandAll, hexpand, ih]
  rw [find, find, hexpandAll]

end SameRules

/-! ## Names -/

/-- The names that the paths of ignore files start with. -/
def ruleNames : List Bytes :=
  [Utf8.encode ".ignore", Utf8.encode ".gitignore", Utf8.encode ".git"]

theorem steps_of_ruleFile {p : Path} (hp : p ∈ ruleFiles) :
    ∃ name ∈ ruleNames, ∃ rest, Tree.steps p = .name name :: rest := by
  have hhead : ∀ p ∈ ruleFiles, ∃ name ∈ ruleNames,
      (Tree.steps p).head? = some (.name name) := by decide +kernel
  obtain ⟨name, hname, hfirst⟩ := hhead p hp
  exact ⟨name, hname, List.head?_eq_some_iff.1 hfirst⟩

/-- Arguments that name files stand for these files. -/
theorem find_of_files {t : Tree} {cwd : Location} {args : List Text}
    (hfiles : ∀ arg ∈ args, t.isFile cwd (Path.ofText arg) = true) :
    find t cwd args =
      .ok (sortPaths (args.map fun arg => (Path.ofText arg).withoutCurrent)) := by
  have hexpand : expandAll t cwd args =
      .ok (args.map fun arg => (Path.ofText arg).withoutCurrent) := by
    induction args with
    | nil => rfl
    | cons arg args ih =>
      rw [List.forall_mem_cons] at hfiles
      rw [expandAll, expand?, if_pos hfiles.1, ih hfiles.2]
      rfl
  rw [find, hexpand]
  rfl

/-- Paths that are in order and all different stay as they are. -/
theorem sortPaths_of_pairwise {paths : List Path}
    (hpaths : paths.Pairwise fun p q => precedes p q = true ∧ p.same q = false) :
    sortPaths paths = paths := by
  have hsorted : paths.mergeSort precedes = paths :=
    List.mergeSort_of_pairwise (hpaths.imp fun h => h.1)
  have hdifferent : paths.Pairwise fun p q => p.same q = false := hpaths.imp fun h => h.2
  rw [sortPaths, hsorted]
  clear hpaths hsorted
  induction paths with
  | nil => rw [dropRepetitions]
  | cons p paths ih =>
    obtain ⟨hfirst, hrest⟩ := List.pairwise_cons.1 hdifferent
    cases paths with
    | nil => rw [dropRepetitions]
    | cons q rest =>
      have hne : ¬ p.same q = true := by simp [hfirst q (by simp)]
      rw [dropRepetitions, if_neg hne, ih hrest]

end Discovery

namespace Command

/-- The path of the settings file of a command. -/
def settingsPath (h : Host) (o : Overrides) : Path :=
  (o.settingsFile.map Path.ofText).getD ((Tree.pathOf h.cwd).join Settings.fileName)

/-- Trees of one shape with the same settings file give the same settings. -/
theorem resolve_eq_of_shape {h : Host} {o : Overrides} {t : Tree}
    (hshape : t.shape = h.tree.shape)
    (hread : t.read h.cwd (settingsPath h o) = h.tree.read h.cwd (settingsPath h o)) :
    resolve { h with tree := t } o = resolve h o := by
  have hpresent (p : Path) : (t.view h.cwd).present p = (h.tree.view h.cwd).present p := by
    simp only [Tree.view, ← Tree.present_shape t, hshape, Tree.present_shape]
  have hfile (p : Path) : (t.view h.cwd).isFile p = (h.tree.view h.cwd).isFile p := by
    simp only [Tree.view, Tree.isFile_eq_of_shape hshape]
  have hload : Settings.load (t.view h.cwd) (settingsPath h o) =
      Settings.load (h.tree.view h.cwd) (settingsPath h o) := by
    have hview : (t.view h.cwd).read (settingsPath h o) =
        (h.tree.view h.cwd).read (settingsPath h o) := by
      simp only [Tree.view, hread]
    simp only [Settings.load, FileView.readText, hpresent, hview]
  unfold settingsPath at hload
  cases hnamed : o.settingsFile with
  | some name =>
    simp only [hnamed, Option.map_some, Option.getD_some] at hload
    simp only [resolve, Host.view, hnamed, Option.map_some, Settings.resolve, hload]
  | none =>
    simp only [hnamed, Option.map_none, Option.getD_none] at hload
    have hdiscover : Settings.discover (t.view h.cwd) (Tree.pathOf h.cwd) =
        Settings.discover (h.tree.view h.cwd) (Tree.pathOf h.cwd) := by
      dsimp only [Settings.discover]
      rw [hfile, hload]
    simp only [resolve, Host.view, hnamed, Option.map_none, Settings.resolve, hdiscover]

/-- The file at a location steers commands: it is the settings file or an ignore file. -/
def Steers (h : Host) (o : Overrides) (l : Location) : Prop :=
  h.tree.fileAt? h.cwd (settingsPath h o) = some l ∨
    ∃ dir, ∃ name ∈ Discovery.ruleFiles, h.tree.fileAt? dir name = some l

/-- Without a settings file and ignore files, no file steers a command. -/
theorem not_steers_of_free {t : Tree} {l : Location}
    (hsettings : t.node? [Utf8.encode ".fishlint.toml"] = none)
    (hrules : ∀ name ∈ Discovery.ruleNames, ∀ e ∈ t.nodes.pairs, e.1.getLast? ≠ some name) :
    ¬ Steers { tree := t } {} l := by
  rintro (hl | ⟨dir, p, hp, hl⟩)
  · have hfile := no_settings_of_free hsettings
    obtain ⟨content, executable, hfind⟩ := Tree.fileAt_eq_some_iff.1 hl
    have hpath : settingsPath { tree := t } {} = (Tree.pathOf []).join Settings.fileName := rfl
    rw [hpath] at hfind
    simp [Tree.isFile, hfind] at hfile
  · obtain ⟨name, hname, rest, hsteps⟩ := Discovery.steps_of_ruleFile hp
    rw [Tree.fileAt_of_free hsteps (Tree.node_of_free_name (hrules name hname) dir)] at hl
    cases hl

/-- Changing files that steer nothing changes neither the settings nor the files that the
arguments stand for. -/
theorem same_start {h : Host} {o : Overrides} {t : Tree} (hshape : t.shape = h.tree.shape)
    (hsteers : ∀ l, Steers h o l → t.node? l = h.tree.node? l) (args : List Text) :
    resolve { h with tree := t } o = resolve h o ∧
      Discovery.find t h.cwd args = Discovery.find h.tree h.cwd args := by
  constructor
  · exact resolve_eq_of_shape hshape
      (Tree.read_eq_of_shape hshape fun l hl => hsteers l (.inl hl))
  · refine Discovery.find_eq_of_shape hshape (fun dir name hname => ?_) h.cwd args
    exact Tree.read_eq_of_shape hshape fun l hl => hsteers l (.inr ⟨dir, name, hname, hl⟩)

end Command

end FishCheck
