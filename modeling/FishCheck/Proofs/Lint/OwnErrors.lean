import FishCheck.Lint
import FishCheck.Proofs.Complaint.Lines

/-!
# The errors of a file

Linting hands the file of a document to the checker and gets back lines that name it.
This module follows the name around that loop: out of the URL, into the checker's
arguments, back through a printed line, the home directory and the URL again.  Every
error that the checker prints for the file becomes one diagnostic, and no other line
becomes one.

Main results:

- Theorem `complaint_of_line`: what one line of output says about the document.
- Theorem `readFor_closeLines`: the complaints about a document are its own lines.
- Theorem `conclude_congr`: only the error output of a run counts.
- Theorem `own_errors_exact`: linting gives one diagnostic for each error of the file.
-/

namespace FishCheck

namespace Lint

/-! ## Lines of output around a document -/

/-- A line of checker output, as it concerns a document. -/
inductive OutputLine
  /-- An error in the document's own file. -/
  | own (number : Nat) (message : Text)
  /-- An error in another file, or no error at all. -/
  | other (text : Text)
deriving DecidableEq, Repr

namespace OutputLine

/-- The line as the checker writes it when it runs on the given file. -/
def toText (file : Text) : OutputLine → Text
  | own number message => Complaint.toLine ⟨file, number, message⟩
  | other text => text

/-- The complaint of a line about the document. -/
def complaint? (file : Text) : OutputLine → Option Complaint
  | own number message => some ⟨file, number, message⟩
  | other _ => none

/-- The message of a line about the document. -/
def message? : OutputLine → Option Text
  | own _ message => some message
  | other _ => none

/-- A complaint about a file that is not the document: it is relative once `~` is
expanded, or has other components. -/
def Elsewhere (document : Path) (home : Option Path) (c : Complaint) : Prop :=
  (c.path home).isAbsolute = false ∨ (c.path home).components ≠ document.components

/-- What the checker may write: the numbers and messages of one line for errors of the
document, and among the other lines no error of the document. -/
def Fits (document : Path) (home : Option Path) : OutputLine → Prop
  | own number message =>
    1 ≤ number ∧ number < 2 ^ 32 ∧ '\n' ∉ message ∧ message.getLast? ≠ some '\r'
  | other text => '\n' ∉ text ∧ ∀ c, Complaint.Reports text c → Elsewhere document home c

end OutputLine

/-! ## Reading the lines -/

section Reading

variable {file : Text} {home : Option Path}

/-- A line that fits holds no line feed. -/
theorem feed_not_mem_toText (hfeed : '\n' ∉ file) {l : OutputLine}
    (h : l.Fits (Path.ofText file) home) : '\n' ∉ l.toText file := by
  cases l with
  | other text => exact h.1
  | own number message =>
    obtain ⟨-, -, hmessage, -⟩ := h
    exact Complaint.feed_not_mem_toLine hfeed hmessage

/-- What one line of output says about the document: its own errors are read back and found
to be its own, and nothing is made of any other line. -/
theorem complaint_of_line (habsolute : (Path.ofText file).isAbsolute = true)
    (hclean : Complaint.Unmarked file) {l : OutputLine} (h : l.Fits (Path.ofText file) home) :
    (Complaint.ofLine? (l.toText file)).filter (·.isAbout (Path.ofText file) home) =
      l.complaint? file := by
  have hhead := Path.head_of_isAbsolute habsolute
  cases l with
  | own number message =>
    obtain ⟨hpos, hlt, -, hmessage⟩ := h
    have hne : file ≠ [] := by
      rintro rfl
      simp at hhead
    have htilde : file.head? ≠ some '~' := by
      rw [hhead]
      decide
    have hread :=
      Complaint.ofLine_toLine (c := ⟨file, number, message⟩) hne hclean hpos hlt hmessage
    have hpath : Complaint.path ⟨file, number, message⟩ home = Path.ofText file :=
      Complaint.expandHome_of_head htilde home
    have habout : Complaint.isAbout ⟨file, number, message⟩ (Path.ofText file) home = true := by
      rw [Complaint.isAbout_iff, hpath]
      exact ⟨habsolute, habsolute, rfl⟩
    simp [OutputLine.toText, OutputLine.complaint?, hread, habout]
  | other text =>
    rw [OutputLine.toText, OutputLine.complaint?, Option.filter_eq_none_iff]
    intro c hc habout
    obtain ⟨-, hpath, hcomponents⟩ := Complaint.isAbout_iff.1 habout
    rcases h.2 c ((Complaint.ofLine_eq_some_iff text c).1 hc) with hrelative | hother
    · rw [hpath] at hrelative
      cases hrelative
    · exact hother hcomponents

/-- The complaints about a document are its own lines, in order. -/
theorem readFor_closeLines (habsolute : (Path.ofText file).isAbsolute = true)
    (hfeed : '\n' ∉ file) (hclean : Complaint.Unmarked file) {lines : List OutputLine}
    (h : ∀ l ∈ lines, l.Fits (Path.ofText file) home) :
    Complaint.readFor (Text.closeLines (lines.map (·.toText file))) (Path.ofText file) home =
      lines.filterMap (·.complaint? file) := by
  have hfeeds : ∀ t ∈ lines.map (·.toText file), '\n' ∉ t := by
    intro t ht
    obtain ⟨l, hl, rfl⟩ := List.mem_map.1 ht
    exact feed_not_mem_toText hfeed (h l hl)
  rw [Complaint.readFor, Complaint.readAll_closeLines hfeeds, List.filterMap_map,
    List.filter_filterMap]
  exact List.filterMap_congr fun l hl => complaint_of_line habsolute hclean (h l hl)

end Reading

/-! ## Diagnostics -/

/-- Two runs with the same error output say the same. -/
theorem conclude_congr {home : Option Path} {text : Text} {path : Path} {c c' : Completion}
    (h : c.stderr = c'.stderr) :
    conclude home text path (.ok c) = conclude home text path (.ok c') := by
  simp only [conclude, Except.map, h]

/-- Linting gives one diagnostic for each error that the checker prints for the file, in
order and with its message, and none for any other line.  The checker is run once, on the file
itself, and of how it ends only its error output counts, whatever tool it is and wherever it
runs. -/
theorem own_errors_exact (r : Request) (file : Text) (home : Option Path)
    (lines : List OutputLine) (exitCode : Int) (stdout : Text)
    (heligible : r.isEligible = true) (hpath : r.url.toPath? = some (Path.ofText file))
    (hfeed : '\n' ∉ file) (hclean : Complaint.Unmarked file)
    (hlines : ∀ l ∈ lines, l.Fits (Path.ofText file) home) :
    r.target? = some (Path.ofText file) ∧
    (∀ settings cwd, invocation settings cwd (Path.ofText file) =
      ⟨settings.checker, ["-n".toList, file], none, cwd, settings.limit⟩) ∧
    (∃ diagnostics,
      conclude home r.text (Path.ofText file)
          (.ok ⟨exitCode, stdout, Text.closeLines (lines.map (·.toText file))⟩) =
        .ok diagnostics ∧
      (∀ (σ : Type) (runTool : σ → Invocation → σ × Outcome) (settings : Settings)
        (cwd : Option Path) (world after : σ),
        runTool world (invocation settings cwd (Path.ofText file)) =
          (after, .ok ⟨exitCode, stdout, Text.closeLines (lines.map (·.toText file))⟩) →
        run runTool settings cwd home r world = (after, .ok (some diagnostics))) ∧
      diagnostics =
        (lines.filterMap (·.complaint? file)).map (Diagnostic.ofComplaint · ⟨r.text⟩) ∧
      diagnostics.map (·.message) = lines.filterMap (·.message?)) ∧
    (∀ c c' : Completion, c.stderr = c'.stderr →
      conclude home r.text (Path.ofText file) (.ok c) =
        conclude home r.text (Path.ofText file) (.ok c')) ∧
    ∀ (σ τ : Type) (runTool : σ → Invocation → σ × Outcome)
      (runTool' : τ → Invocation → τ × Outcome) (settings settings' : Settings)
      (cwd cwd' : Option Path) (world : σ) (world' : τ) (c c' : Completion),
      c.stderr = c'.stderr →
      (runTool world (invocation settings cwd (Path.ofText file))).2 = .ok c →
      (runTool' world' (invocation settings' cwd' (Path.ofText file))).2 = .ok c' →
      (run runTool settings cwd home r world).2 =
        (run runTool' settings' cwd' home r world').2 := by
  have habsolute := Url.isAbsolute_of_toPath hpath
  have htarget : r.target? = some (Path.ofText file) := by
    rw [Request.target?, if_pos heligible, hpath]
  have hconclude : conclude home r.text (Path.ofText file)
      (.ok ⟨exitCode, stdout, Text.closeLines (lines.map (·.toText file))⟩) =
        .ok ((lines.filterMap (·.complaint? file)).map (Diagnostic.ofComplaint · ⟨r.text⟩)) := by
    simp only [conclude, Except.map, diagnostics, readFor_closeLines habsolute hfeed hclean hlines]
  refine ⟨htarget, fun settings cwd => ?_, ⟨_, hconclude, ?_, rfl, ?_⟩,
    fun c c' hstderr => conclude_congr hstderr, ?_⟩
  · simp only [invocation, Path.toText, Path.ofText, Utf8.lenient_encode]
  · intro σ runTool settings cwd world after hrun
    rw [run_of_target htarget, hrun, hconclude]
    rfl
  · rw [List.map_map, List.map_filterMap]
    refine List.filterMap_congr fun l _ => ?_
    cases l <;> rfl
  · intro σ τ runTool runTool' settings settings' cwd cwd' world world' c c' hstderr hrun hrun'
    rw [run_of_target htarget, run_of_target htarget, hrun, hrun', conclude_congr hstderr]

/-- A file with a space, a bracket and an escaped percent sign in its name, whose second
error follows one of another file and a line of context.  The tool counts its runs and answers
only on the file by its name. -/
theorem own_errors_exact_bracketed :
    let url : Url := ⟨"file", some ⟨[], [], []⟩, "/tmp/a%20(line%20x)%25.fish", none, none⟩
    let r : Request := ⟨url, "if\necho )\n", "fish", true⟩
    let file : Text := "/tmp/a (line x)%.fish"
    let lines : List OutputLine :=
      [.own 1 "Missing end", .other "~/a (line x)%.fish (line 2): oops", .other "  ^", .own 9 []]
    let stderr : Text := Text.closeLines (lines.map (·.toText file))
    let runTool : Nat → Invocation → Nat × Outcome := fun n i =>
      if i.args = ["-n".toList, file] then (n + 1, .ok ⟨127, [], stderr⟩)
      else (n, .error (.notFound i.program))
    let other : Unit → Invocation → Unit × Outcome := fun _ _ => ((), .ok ⟨0, "x", stderr⟩)
    r.isEligible = true ∧ r.url.toPath? = some (Path.ofText file) ∧ '\n' ∉ file ∧
      Complaint.Unmarked file ∧ (∀ l ∈ lines, l.Fits (Path.ofText file) (some "/home/me")) ∧
      runTool 0 (invocation {} none (Path.ofText file)) = (1, .ok ⟨127, [], stderr⟩) ∧
      ∃ diagnostics,
        run runTool {} none (some "/home/me") r 0 = (1, .ok (some diagnostics)) ∧
        diagnostics.map (·.message) = ["Missing end".toList, []] ∧
        (run other {} (some "/") (some "/home/me") r ()).2 = .ok (some diagnostics) := by
  intro url r file lines stderr runTool other
  have heligible : r.isEligible = true := by decide +kernel
  have hpath : r.url.toPath? = some (Path.ofText file) := by decide +kernel
  have hfeed : '\n' ∉ file := by decide +kernel
  have hclean : Complaint.Unmarked file :=
    Complaint.unmarked_of_firstMarker (by decide +kernel)
  have hother : (OutputLine.other "~/a (line x)%.fish (line 2): oops").Fits (Path.ofText file)
      (some "/home/me") := by
    refine ⟨by decide +kernel, fun c hc => Or.inr ?_⟩
    have hread : Complaint.ofLine? "~/a (line x)%.fish (line 2): oops" =
        some ⟨"~/a (line x)%.fish", 2, "oops"⟩ := by decide +kernel
    obtain rfl := Option.some.inj (hread.symm.trans ((Complaint.ofLine_eq_some_iff _ c).2 hc))
    decide +kernel
  have hcontext : (OutputLine.other "  ^").Fits (Path.ofText file) (some "/home/me") := by
    refine ⟨by decide +kernel, fun c hc => ?_⟩
    have hread : Complaint.ofLine? "  ^" = none := by decide +kernel
    exact absurd (hread.symm.trans ((Complaint.ofLine_eq_some_iff _ c).2 hc)) (by simp)
  have hfirst : (OutputLine.own 1 "Missing end").Fits (Path.ofText file) (some "/home/me") :=
    ⟨by decide, by decide, by decide +kernel, by decide +kernel⟩
  have hlast : (OutputLine.own 9 []).Fits (Path.ofText file) (some "/home/me") :=
    ⟨by decide, by decide, by decide, by decide⟩
  have hlines : ∀ l ∈ lines, l.Fits (Path.ofText file) (some "/home/me") := by
    simp only [lines, List.forall_mem_cons, List.not_mem_nil, false_implies, implies_true, and_true]
    exact ⟨hfirst, hother, hcontext, hlast⟩
  have hanswer : runTool 0 (invocation {} none (Path.ofText file)) =
      (1, .ok ⟨127, [], stderr⟩) := by
    decide +kernel
  obtain ⟨-, -, ⟨diagnostics, -, hrun, -, hmessages⟩, -, hsame⟩ :=
    own_errors_exact r file (some "/home/me") lines 127 [] heligible hpath hfeed hclean hlines
  have hgiven := hrun Nat runTool {} none 0 1 hanswer
  have halike : (run runTool {} none (some "/home/me") r 0).2 =
      (run other {} (some "/") (some "/home/me") r ()).2 :=
    hsame Nat Unit runTool other {} {} none (some "/") 0 () ⟨127, [], stderr⟩ ⟨0, "x", stderr⟩
      rfl (congrArg Prod.snd hanswer) rfl
  exact ⟨heligible, hpath, hfeed, hclean, hlines, hanswer, diagnostics, hgiven, hmessages,
    halike.symm.trans (congrArg Prod.snd hgiven)⟩

end Lint

end FishCheck
