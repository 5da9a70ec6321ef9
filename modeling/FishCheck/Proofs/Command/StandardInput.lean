import FishCheck.Command.Formatting
import FishCheck.Proofs.Document.Offsets
import FishCheck.Proofs.Text.Decoding

/-!
# Formatting standard input

An editor that pipes a text through the formatter replaces the text by what comes out.
Whatever the formatter does, it gets either the formatter's output or its own bytes back,
and the exit code says which.  This holds of every input that is text.  An input that is
not is refused before the formatter starts, and nothing comes out.

Main results:

- Theorem `runInput_of_text`: what comes out for a text, for every end of the formatter.
- Theorem `runInput_of_not_text`: what comes out for bytes that are no text.
- Theorem `input_kept_iff`: nothing is lost exactly when the input is text.
-/

namespace FishCheck

/-! ## Settings of a bare host -/

namespace Tree

/-- A last name under which there is nothing leads to a free place. -/
theorem follow_free {t : Tree} {here : Location} {name : Bytes} (last : Bool) (links : Nat)
    (hlength : ¬ maxName < name.length) (hfree : t.node? (here ++ [name]) = none) :
    t.follow last links here [.name name] = .ok ⟨here ++ [name], none⟩ := by
  rw [follow, if_neg hlength]
  simp only [hfree, List.isEmpty_nil, if_true]

end Tree

namespace Command

/-- Without a settings file the settings are the defaults. -/
theorem resolve_default {h : Host}
    (hfile : h.view.isFile ((Tree.pathOf h.cwd).join Settings.fileName) = false) :
    resolve h {} = .ok {} := by
  have hnone := Settings.discover_none hfile
  simp only [resolve, Option.map_none, Settings.resolve, hnone, Except.map, Option.getD_none]
  rfl

/-- In a root directory without an entry of that name there is no settings file. -/
theorem no_settings_of_free {t : Tree} (hfree : t.node? [Utf8.encode ".fishlint.toml"] = none) :
    t.isFile [] ((Tree.pathOf []).join Settings.fileName) = false := by
  have hpath : (Tree.pathOf []).join Settings.fileName = ⟨Utf8.encode "/.fishlint.toml"⟩ := by
    decide +kernel
  have hsteps : Tree.steps ⟨Utf8.encode "/.fishlint.toml"⟩ =
      [.root, .name (Utf8.encode ".fishlint.toml")] := by decide +kernel
  have hfollow : t.follow true Tree.maxLinks [] [.name (Utf8.encode ".fishlint.toml")] =
      .ok ⟨[] ++ [Utf8.encode ".fishlint.toml"], none⟩ :=
    Tree.follow_free true Tree.maxLinks (by decide +kernel) hfree
  have hresolve : t.resolve [] ⟨Utf8.encode "/.fishlint.toml"⟩ true =
      .ok ⟨[Utf8.encode ".fishlint.toml"], none⟩ := by
    rw [Tree.resolve, if_neg (by decide +kernel), if_neg (by decide +kernel),
      if_neg (by decide +kernel), hsteps, Tree.follow, hfollow, List.nil_append]
  simp only [hpath, Tree.isFile, Tree.find, hresolve, Except.bind]

theorem resolve_of_free {t : Tree} (hfree : t.node? [Utf8.encode ".fishlint.toml"] = none) :
    resolve { tree := t } {} = .ok {} :=
  resolve_default (no_settings_of_free hfree)

/-- On a host without files the settings are the defaults. -/
theorem resolve_bare : resolve { tree := {} } {} = .ok {} := resolve_of_free rfl

end Command

namespace Formatting

/-! ## Reports on standard input -/

/-- The report says that the formatter is done, and what it wrote. -/
def Delivers (output : Bytes) (r : Report) : Prop :=
  r.exitCode = Command.success ∧ r.stdout = Utf8.lenient output

/-- The report says that there is no output, and gives the input back byte for byte. -/
def GivesBack (stdin : Bytes) (r : Report) : Prop :=
  r.exitCode = Command.toolError ∧ Utf8.encode r.stdout = stdin

/-- The run of the formatter on a whole text. -/
def wholeRun (s : Settings) (h : Host) (text : Text) : Invocation :=
  ⟨s.formatter, s.formatterArgs, some text, Command.directoryOf h, s.limit⟩

/-- The report that goes with the end of a formatter run. -/
def Answers (stdin : Bytes) (result : Except Failure Output) (r : Report) : Prop :=
  match result with
  | .ok output => if output.exitCode = 0 then Delivers output.stdout r else GivesBack stdin r
  | .error _ => GivesBack stdin r

section Input

variable {exec : Executor} {p : Palette} {s : Settings} {h : Host}

/-- Formatting a text runs the formatter once, with the text as its whole input. -/
theorem formatText_eq (text : Text) :
    formatText exec s h text =
      ((exec h (wholeRun s h text)).1,
        (Format.conclude (Document.fullRange ⟨text⟩)
          ((exec h (wholeRun s h text)).2.map Output.decode)).map fun e? => e?.map (·.newText)) := by
  simp only [formatText, Format.invocation, Document.slice_fullRange, wholeRun]

/-- A text goes through the formatter or comes back. -/
theorem runInput_of_text (text : Text) :
    Answers (Utf8.encode text) (exec h (wholeRun s h text)).2
      (runInput exec p s h (Utf8.encode text)).2 := by
  simp only [runInput, Utf8.strict_encode, formatText_eq]
  cases (exec h (wholeRun s h text)).2 with
  | ok output =>
    by_cases hcode : output.exitCode = 0
    · have hdecoded : output.decode.exitCode = 0 := hcode
      simp only [Answers, if_pos hcode, Except.map, Format.conclude_ok _ _ hdecoded]
      exact ⟨rfl, rfl⟩
    · have hdecoded : output.decode.exitCode ≠ 0 := hcode
      simp only [Answers, if_neg hcode, Except.map, Format.conclude_rejected _ _ hdecoded]
      exact ⟨rfl, rfl⟩
  | error f => cases f <;> exact ⟨rfl, rfl⟩

/-- What the formatter run does to the host is all that happens there. -/
theorem runInput_host (text : Text) :
    (runInput exec p s h (Utf8.encode text)).1 = (exec h (wholeRun s h text)).1 := by
  simp only [runInput, Utf8.strict_encode, formatText_eq]
  split <;> rfl

/-- Bytes that are no text are refused: the formatter does not start and nothing comes out. -/
theorem runInput_of_not_text {stdin : Bytes} (hstdin : ∀ text, stdin ≠ Utf8.encode text) :
    runInput exec p s h stdin =
      (h, Command.failed p ("Failed to read stdin: " ++ notText)) := by
  have hnone : Utf8.strict? stdin = none := by
    rw [Option.eq_none_iff_forall_ne_some]
    exact fun text htext => hstdin text ((Utf8.strict_eq_some_iff stdin text).1 htext)
  simp only [runInput, hnone]

end Input

/-! ## The command -/

/-- Once the settings are known, formatting standard input answers every text by the end of
the formatter run on it: with the formatter's output, or with the text as it came.  Success
is reported or the input given back exactly when the input is text; other bytes are refused
without a run, and nothing is written. -/
theorem input_kept_iff (exec : Executor) (p : Palette) (h : Host) (o : Overrides)
    (args : List Text) (check : Bool) (stdin : Bytes) (s : Settings)
    (hs : Command.resolve h o = .ok s) :
    let result := run exec p h o args check true stdin
    (∀ text, stdin = Utf8.encode text →
      result.1 = (exec h (wholeRun s h text)).1 ∧
      Answers stdin (exec h (wholeRun s h text)).2 result.2) ∧
    ((∀ text, stdin ≠ Utf8.encode text) →
      result.1 = h ∧ result.2.exitCode = Command.toolError ∧ result.2.stdout = []) ∧
    (result.2.exitCode = Command.success ∨ GivesBack stdin result.2 ↔
      ∃ text, stdin = Utf8.encode text) := by
  have hrun : run exec p h o args check true stdin = runInput exec p s h stdin := by
    simp only [run, hs, if_true]
  simp only [hrun]
  have hrefused : (∀ text, stdin ≠ Utf8.encode text) →
      (runInput exec p s h stdin).1 = h ∧
      (runInput exec p s h stdin).2.exitCode = Command.toolError ∧
      (runInput exec p s h stdin).2.stdout = [] := by
    intro hstdin
    rw [runInput_of_not_text hstdin]
    exact ⟨rfl, rfl, rfl⟩
  refine ⟨?_, hrefused, ?_, ?_⟩
  · rintro text rfl
    exact ⟨runInput_host text, runInput_of_text text⟩
  · -- a refusal writes nothing, and no bytes at all are a text
    intro hkept
    by_contra hno
    have hstdin : ∀ text, stdin ≠ Utf8.encode text := fun text htext => hno ⟨text, htext⟩
    obtain ⟨-, hcode, hstdout⟩ := hrefused hstdin
    rcases hkept with hsuccess | ⟨-, hback⟩
    · rw [hcode] at hsuccess
      cases hsuccess
    · rw [hstdout] at hback
      exact hstdin [] hback.symm
  · rintro ⟨text, rfl⟩
    have hanswers : Answers (Utf8.encode text) (exec h (wholeRun s h text)).2
        (runInput exec p s h (Utf8.encode text)).2 := runInput_of_text text
    unfold Answers at hanswers
    split at hanswers
    · split at hanswers
      · exact .inl hanswers.1
      · exact .inr hanswers
    · exact .inr hanswers

/-- A formatter that cannot be found leaves a text as it came. -/
theorem input_kept_of_notFound :
    let exec : Executor := fun h i => (h, .error (.notFound i.program))
    let h : Host := { tree := {} }
    let stdin := Utf8.encode "echo  é\n"
    Command.resolve h {} = .ok {} ∧ GivesBack stdin (run exec {} h {} [] false true stdin).2 := by
  intro exec h stdin
  have hs : Command.resolve h {} = .ok {} := Command.resolve_bare
  obtain ⟨htext, -, -⟩ := input_kept_iff exec {} h {} [] false stdin {} hs
  exact ⟨hs, (htext "echo  é\n" rfl).2⟩

/-- Not every input is kept: bytes that are no text get lost. -/
theorem input_lost :
    ¬ ∀ (exec : Executor) (p : Palette) (h : Host) (o : Overrides) (args : List Text)
      (check : Bool) (stdin : Bytes) (s : Settings), Command.resolve h o = .ok s →
      let report := (run exec p h o args check true stdin).2
      (∃ text output, (exec h (wholeRun s h text)).2 = .ok output ∧
        Delivers output.stdout report) ∨ GivesBack stdin report := by
  intro hkept
  have hnone : Utf8.strict? [0xFF, 0x0A] = none := by decide +kernel
  let exec : Executor := fun h i => (h, .error (.notFound i.program))
  have hstdout : (run exec {} { tree := {} } {} [] false true [0xFF, 0x0A]).2.stdout = [] := by
    simp only [run, Command.resolve_bare, if_true, runInput, hnone]
    rfl
  rcases hkept exec {} { tree := {} } {} [] false [0xFF, 0x0A] {} Command.resolve_bare with
    ⟨_, _, hrun, -⟩ | ⟨-, hback⟩
  · cases hrun
  · rw [hstdout] at hback
    cases hback

end Formatting

end FishCheck
