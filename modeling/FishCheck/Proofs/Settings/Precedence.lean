import FishCheck.Proofs.Command.Tools
import FishCheck.Proofs.Settings.Filed
import FishCheck.Proofs.Settings.Sent
import FishCheck.Proofs.Version.Lines
import Mathlib.Data.List.Permutation

/-!
# Which source of settings wins

A session and the commands of the command line get their settings from three sources: what the
editor sends or the options of the command line, one settings file, and the defaults.  The file
is the one that is named first, or else the customary one in the directory, and no other file
stands in for one that cannot be used.  For each setting the first source that has it decides.
A session goes on without options or a file that cannot be used; a command ends before it does
anything when its file cannot be used.

Main results:

- Theorem `Activation.get_candidate`: the settings that a session is set up with.
- Theorem `Command.get_resolve`: the settings of a command.
- Theorem `CommandLine.perform_of_unusable`: a command whose settings file cannot be used.
- Theorem `CommandLine.settings_precedence`: all of this together.
-/

namespace FishCheck

open Toml (Entries)

/-! ## The settings file -/

/-- The settings file to read: the one that is named, or else the customary one in a directory,
if it is a file there. -/
def Settings.chosen? (files : FileView) (named : Option Text) (dir : Option Path) :
    Option Path :=
  match named with
  | some path => some (Path.ofText path)
  | none => (dir.map fun dir => dir.join fileName).filter files.isFile

/-- The settings of the file to read; without one, the defaults. -/
def Settings.loadChosen (files : FileView) : Option Path → Except SettingsError Settings
  | none => .ok {}
  | some path => load files path

/-- What the settings file to read says about a setting, if the file can be used. -/
def Setting.filed? (k : Setting) (files : FileView) (path : Option Path) : Option k.Value :=
  ((path.bind (SettingsFile.entries? files)).bind (Entries.find? k.fileKey)).bind k.ofNode?

/-- A setting is what the entries of a file say, or else the default. -/
theorem get_layerOf (entries : Option Entries) (k : Setting) :
    ((entries.map fun es => ({} : Settings).apply (SettingsFile.layerOf es)).getD {}).get k =
      ((entries.bind (Entries.find? k.fileKey)).bind k.ofNode?).getD k.fallback := by
  cases entries with
  | none => rfl
  | some es =>
    rw [Option.map_some, Option.getD_some, Settings.get_apply, SettingsFile.layerOf,
      Layer.get_ofGet]
    rfl

/-! ## Sessions -/

namespace Activation

/-- A session takes each setting from the file to read, if it can be used, or else the default. -/
theorem get_fileSettings (files : FileView) (named : Option Text) (root : Option Path)
    (k : Setting) : (fileSettings files named root).get k =
      (k.filed? files (Settings.chosen? files named root)).getD k.fallback := by
  rw [Setting.filed?, ← get_layerOf]
  congr 1
  unfold fileSettings Settings.chosen?
  cases named with
  | some path =>
    dsimp only
    rw [Settings.toOption_load, Option.bind_some]
  | none =>
    cases root with
    | none => rfl
    | some dir =>
      dsimp only [Option.map_some, Settings.discover]
      rw [Option.filter_some]
      split
      · rw [toOption_map, Settings.toOption_load, Option.bind_some]
        cases SettingsFile.entries? files (dir.join Settings.fileName) <;> rfl
      · rfl

/-- For each setting of a session, what the editor sends goes first, then the settings file,
then the default. -/
theorem get_candidate (files : FileView) (commandLine : Option Text) (p : Params.SetUp)
    (k : Setting) : (candidate files commandLine p).settings.get k =
      (k.sent? p.options).getD ((k.filed? files (Settings.chosen? files
        (EditorOptions.sentPath? p.options <|> commandLine) p.root)).getD k.fallback) := by
  rw [candidate, optionsOf_eq]
  dsimp only
  rw [Settings.get_apply, Layer.get_ofGet, get_fileSettings]

end Activation

/-! ## Commands -/

/-- What the options of the command line say about a setting. -/
def Setting.flagged? (o : SharedOptions) : (k : Setting) → Option k.Value
  | .checker => o.checker
  | .formatter => o.formatter
  | .formatterArgs => none
  | .timeout => o.timeout
  | .enableLinting | .enableFormatting => none

namespace Command

/-- The settings file of a command. -/
def fileOf? (h : Host) (o : SharedOptions) : Option Path :=
  Settings.chosen? h.view o.config (some (Tree.pathOf h.cwd))

theorem get_layer_overrides (o : SharedOptions) (k : Setting) :
    (Overrides.layer (CommandLine.overrides o)).get? k = k.flagged? o := by
  cases k <;> rfl

/-- Without a settings file a command starts from the defaults, and else from the file. -/
theorem resolve_eq (h : Host) (o : SharedOptions) :
    resolve h (CommandLine.overrides o) =
      (Settings.loadChosen h.view (fileOf? h o)).map fun s =>
        s.apply (Overrides.layer (CommandLine.overrides o)) := by
  unfold resolve fileOf? Settings.chosen?
  congr 1
  cases hconfig : o.config with
  | some path =>
    simp only [CommandLine.overrides, hconfig, Option.map_some, Settings.resolve,
      Settings.loadChosen]
  | none =>
    simp only [CommandLine.overrides, hconfig, Option.map_none, Settings.resolve,
      Settings.discover, Option.map_some, Option.filter_some]
    split
    · simp only [Settings.loadChosen]
      cases Settings.load h.view ((Tree.pathOf h.cwd).join Settings.fileName) <;> rfl
    · rfl

/-- For each setting of a command, the options of the command line go first, then the settings
file, then the default, provided that the file can be used if there is one. -/
theorem get_resolve {h : Host} {o : SharedOptions}
    (husable : ∀ path, fileOf? h o = some path →
      (SettingsFile.entries? h.view path).isSome = true) :
    ∃ s, resolve h (CommandLine.overrides o) = .ok s ∧ ∀ k : Setting,
      s.get k = (k.flagged? o).getD ((k.filed? h.view (fileOf? h o)).getD k.fallback) := by
  obtain ⟨s, hs, hget⟩ : ∃ s, Settings.loadChosen h.view (fileOf? h o) = .ok s ∧
      s = (((fileOf? h o).bind (SettingsFile.entries? h.view)).map fun es =>
        ({} : Settings).apply (SettingsFile.layerOf es)).getD {} := by
    cases hfile : fileOf? h o with
    | none => exact ⟨{}, rfl, rfl⟩
    | some path =>
      have hload := Settings.toOption_load h.view path
      obtain ⟨es, hes⟩ := Option.isSome_iff_exists.1 (husable path hfile)
      rw [hes] at hload
      dsimp only [Option.bind_some, Settings.loadChosen]
      rw [hes]
      cases hs : Settings.load h.view path with
      | error e =>
        rw [hs] at hload
        cases hload
      | ok s =>
        rw [hs] at hload
        exact ⟨s, rfl, Option.some.inj hload⟩
  refine ⟨_, by rw [resolve_eq, hs]; rfl, fun k => ?_⟩
  rw [Settings.get_apply, get_layer_overrides, hget, get_layerOf]
  rfl

/-- A command has no settings when its settings file cannot be used. -/
theorem resolve_of_unusable {h : Host} {o : SharedOptions} {path : Path}
    (hfile : fileOf? h o = some path) (hunusable : SettingsFile.entries? h.view path = none) :
    ∃ e, resolve h (CommandLine.overrides o) = .error e := by
  have hload := Settings.toOption_load h.view path
  rw [hunusable] at hload
  rw [resolve_eq, hfile, Settings.loadChosen]
  cases hs : Settings.load h.view path with
  | error e => exact ⟨e, rfl⟩
  | ok s =>
    rw [hs] at hload
    cases hload

end Command

namespace CommandLine

/-- A command whose settings file cannot be used ends with the exit code of errors; it runs no
tool, reads no input and leaves the host as it was. -/
theorem perform_of_unusable (p : Palette) {h : Host} {o : SharedOptions} {path : Path}
    (hfile : Command.fileOf? h o = some path)
    (hunusable : SettingsFile.entries? h.view path = none) {r : Request}
    (hr : readsSettings r = true) :
    ∃ report, report.exitCode = Command.toolError ∧
      ∀ exec stdin, perform exec p h o stdin r = (h, report) := by
  obtain ⟨e, he⟩ := Command.resolve_of_unusable hfile hunusable
  cases r with
  | check paths quiet =>
    refine ⟨Command.failed p e.message, rfl, fun exec stdin => ?_⟩
    rw [perform, Check.run, he]
  | format paths check fromInput =>
    refine ⟨Command.failed p e.message, rfl, fun exec stdin => ?_⟩
    rw [perform, Formatting.run, he]
  | version =>
    refine ⟨{ Command.failed p e.message with stdout := banner }, rfl, fun exec stdin => ?_⟩
    rw [perform, version, he]
  | serve | ownVersion | help => cases hr

/-- Commands that read settings see the options of the command line through them alone. -/
theorem perform_of_same_settings (exec : Executor) (p : Palette) {h : Host} {o o' : SharedOptions}
    (hsame : Command.resolve h (overrides o) = Command.resolve h (overrides o'))
    (stdin : Bytes) {r : Request} (hr : readsSettings r = true) :
    perform exec p h o stdin r = perform exec p h o' stdin r := by
  cases r with
  | check paths quiet => rw [perform, perform, Check.run, Check.run, hsame]
  | format paths check fromInput =>
    rw [perform, perform, Formatting.run, Formatting.run, hsame]
  | version => rw [perform, perform, version, version, hsame]
  | serve | ownVersion | help => cases hr

/-- Which source of settings wins.  Once a session is set up, each of its settings is what the
editor sent for it, or else what the settings file says, or else the default.  The same holds of
commands, with the options of the command line in the place of what the editor sends; they see
these options through their settings alone, and do their work with these settings.  But a command
whose settings file cannot be used does nothing and ends with an error. -/
theorem settings_precedence :
    (∀ (files : FileView) (commandLine : Option Text) (p : Params.SetUp) (s : Session)
      (outcome : Outcome) (v : Version) (k : Setting),
      Version.conclude (Activation.candidate files commandLine p).settings outcome = .ok v →
      (Activation.conclude s (Activation.candidate files commandLine p) outcome).1.settings.get k =
        (k.sent? p.options).getD ((k.filed? files (Settings.chosen? files
          (EditorOptions.sentPath? p.options <|> commandLine) p.root)).getD k.fallback)) ∧
    (∀ (h : Host) (o : SharedOptions),
      (∀ path, Command.fileOf? h o = some path →
        (SettingsFile.entries? h.view path).isSome = true) →
      ∃ s, Command.resolve h (overrides o) = .ok s ∧ ∀ k : Setting,
        s.get k = (k.flagged? o).getD ((k.filed? h.view (Command.fileOf? h o)).getD k.fallback)) ∧
    (∀ (exec : Executor) (palette : Palette) (h : Host) (o o' : SharedOptions) (stdin : Bytes)
      (r : Request), readsSettings r = true →
      Command.resolve h (overrides o) = Command.resolve h (overrides o') →
      perform exec palette h o stdin r = perform exec palette h o' stdin r) ∧
    (∀ (exec : Executor) (palette : Palette) (h : Host) (o : SharedOptions) (stdin : Bytes)
      (s : Settings), Command.resolve h (overrides o) = .ok s →
      WorksWith exec palette h o stdin s) ∧
    ∀ (palette : Palette) (h : Host) (o : SharedOptions) (path : Path) (r : Request),
      Command.fileOf? h o = some path → SettingsFile.entries? h.view path = none →
      readsSettings r = true →
      ∃ report, report.exitCode = 2 ∧
        ∀ exec stdin, perform exec palette h o stdin r = (h, report) := by
  refine ⟨fun files commandLine p s outcome v k hprobe => ?_, fun h o => Command.get_resolve,
    fun exec palette h o o' stdin r hr hsame =>
      perform_of_same_settings exec palette hsame stdin hr,
    fun exec palette h o stdin s hs => worksWith_of_resolve exec palette stdin hs,
    fun palette h o path r hfile hunusable hr => perform_of_unusable palette hfile hunusable hr⟩
  rw [Activation.conclude_ok hprobe]
  exact Activation.get_candidate files commandLine p k

/-- A host with a settings file in its root directory. -/
def hostWith (source : Text) : Host :=
  { tree := ⟨⟨[([Utf8.encode ".fishlint.toml"], .file (Utf8.encode source) false)]⟩⟩ }

theorem fileOf_hostWith (source : Text) {o : SharedOptions} (ho : o.config = none) :
    Command.fileOf? (hostWith source) o = some (Path.ofText "/.fishlint.toml") := by
  have hcustomary : Settings.chosen? (hostWith source).view none (some (Tree.pathOf [])) =
      some (Path.ofText "/.fishlint.toml") := by cbv
  rw [Command.fileOf?, ho]
  exact hcustomary

theorem entries_hostWith (source : Text) :
    SettingsFile.entries? (hostWith source).view (Path.ofText "/.fishlint.toml") =
      (Toml.read? source).filter fun es => es.all SettingsFile.entryFits := by
  have hpresent : (hostWith source).view.present "/.fishlint.toml" = true := by cbv
  have hread : (hostWith source).view.read "/.fishlint.toml" = .ok (Utf8.encode source) := by cbv
  rw [SettingsFile.entries?, if_pos hpresent, FileView.readText, hread, Except.bind,
    Utf8.strict_encode]
  rfl

/-- A checker that answers under one limit, and a formatter that does so and knows one text. -/
def limitedTools : Executor := fun h i =>
  if i = ⟨"fish", ["--version"], none, none, some 7⟩ then
    (h, .ok ⟨0, Utf8.encode "fish, version 4\n", []⟩)
  else if i = ⟨"f", [], some "a", some "/", some 7⟩ then (h, .ok ⟨0, Utf8.encode "b\n", []⟩)
  else (h, .error (.notFound i.program))

/-- A file gives two settings; one of them is sent by an editor too, and is set on the command
line.  The commands for the version and for formatting run the tools with these settings.  In
another file one value of two does not fit, and the command that has to use it ends without
running anything, whatever its options set. -/
theorem settings_precedence_of_layers :
    let h : Host := hostWith "formatter = \"f\"\ntimeout = 9\n"
    let spoiled : Host := hostWith "formatter = \"f\"\ntimeout = \"9\"\n"
    let name : Text := "/.fishlint.toml"
    let p : Params.SetUp := ⟨none, none, some (.obj [("timeout", .int 5)])⟩
    let c := Activation.candidate h.view (some name) p
    let s := (Activation.conclude {} c (.ok ⟨0, "fish, version 4", []⟩)).1.settings
    (s.checker, s.formatter, s.timeout) = (("fish" : Text), ("f" : Text), 5) ∧
    (∃ s, Command.resolve h (overrides { timeout := some 7 }) = .ok s ∧
      (s.checker, s.formatter, s.timeout) = (("fish" : Text), ("f" : Text), 7)) ∧
    (∀ exec, perform exec {} h { timeout := some 7 } [] .version =
      perform exec {} h { config := some name, timeout := some 7 } [] .version) ∧
    perform limitedTools {} h { timeout := some 7 } [] .version =
      (h, ⟨0, banner ++ Command.line "fish, version 4 (fish)", []⟩) ∧
    (perform limitedTools {} h { timeout := some 7 } (Utf8.encode "a")
      (.format [] false true)).2.stdout = "b\n" ∧
    ∃ report, report.exitCode = 2 ∧
      ∀ exec stdin, perform exec {} spoiled { timeout := some 7 } stdin .version =
        (spoiled, report) := by
  intro h spoiled name p c s
  obtain ⟨hsession, hcommand, hsame, hworks, habort⟩ := settings_precedence
  have hprobe : Version.conclude c.settings (.ok ⟨0, "fish, version 4", []⟩) =
      .ok ⟨"fish", "4"⟩ := by decide +kernel
  have hchosen : Settings.chosen? h.view (EditorOptions.sentPath? p.options <|> some name)
      p.root = some (Path.ofText name) := by decide +kernel
  have hsent : Setting.checker.sent? p.options = none ∧ Setting.formatter.sent? p.options = none ∧
      Setting.timeout.sent? p.options = some (Settings.get { timeout := 5 } .timeout) := by
    decide +kernel
  have hfile := fileOf_hostWith "formatter = \"f\"\ntimeout = 9\n" (o := { timeout := some 7 }) rfl
  have hchecker : Setting.checker.filed? h.view (some (Path.ofText name)) = none := by
    rw [Setting.filed?, Option.bind_some, entries_hostWith]
    decide +kernel
  have hformatter : Setting.formatter.filed? h.view (some (Path.ofText name)) =
      some (Settings.get { formatter := "f" } .formatter) := by
    rw [Setting.filed?, Option.bind_some, entries_hostWith]
    decide +kernel
  have hargs : Setting.formatterArgs.filed? h.view (some (Path.ofText name)) = none := by
    rw [Setting.filed?, Option.bind_some, entries_hostWith]
    decide +kernel
  obtain ⟨s', hs, hget⟩ := hcommand h { timeout := some 7 } (fun used hused => by
    rw [hfile] at hused
    rw [← Option.some.inj hused, entries_hostWith]
    decide +kernel)
  rw [hfile] at hget
  have hchecker' : s'.checker = "fish" := (hget .checker).trans (by rw [hchecker]; rfl)
  have hformatter' : s'.formatter = "f" := (hget .formatter).trans (by rw [hformatter]; rfl)
  have hargs' : s'.formatterArgs = [] := (hget .formatterArgs).trans (by rw [hargs]; rfl)
  have hlimit' : s'.timeout = 7 := hget .timeout
  refine ⟨?_, ⟨s', hs, by rw [hchecker', hformatter', hlimit']⟩, fun exec => ?_, ?_, ?_, ?_⟩
  · have hget (k : Setting) := hsession h.view (some name) p {} _ _ k hprobe
    rw [hchosen] at hget
    refine Prod.ext ((hget .checker).trans ?_)
      (Prod.ext ((hget .formatter).trans ?_) ((hget .timeout).trans ?_))
    · rw [hsent.1, hchecker]
      rfl
    · rw [hsent.2.1, hformatter]
      rfl
    · rw [hsent.2.2]
      rfl
  · refine hsame exec {} h _ _ [] .version rfl ?_
    rw [Command.resolve_eq, Command.resolve_eq, hfile]
    rfl
  · have hran : limitedTools h ⟨s'.checker, ["--version"], none, none, s'.limit⟩ =
        (h, .ok ⟨0, Utf8.encode "fish, version 4\n", []⟩) := by
      rw [hchecker', Settings.limit, hlimit']
      rfl
    have hversion := (hworks limitedTools {} h { timeout := some 7 } [] s' hs).version h _
      ⟨"fish", "4"⟩ hran (Version.conclude_eq_ok_iff.2 ⟨_, rfl, .inl (by decide +kernel)⟩)
    rw [hversion, hchecker']
    rfl
  · have hran : (limitedTools h (Formatting.wholeRun s' h "a")).2 =
        .ok ⟨0, Utf8.encode "b\n", []⟩ := by
      rw [Formatting.wholeRun, hformatter', hargs', Settings.limit, hlimit']
      rfl
    obtain ⟨-, hanswers⟩ := (hworks limitedTools {} h { timeout := some 7 } (Utf8.encode "a") s'
      hs).formatInput [] false "a" rfl
    rw [hran] at hanswers
    exact hanswers.2.trans (Utf8.lenient_encode _)
  · refine habort {} spoiled { timeout := some 7 } (Path.ofText name) .version
      (fileOf_hostWith _ rfl) ?_ rfl
    rw [entries_hostWith]
    decide +kernel

end CommandLine

end FishCheck
