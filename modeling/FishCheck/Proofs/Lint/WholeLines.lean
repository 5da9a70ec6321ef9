import FishCheck.Command.Check
import FishCheck.Proofs.Complaint.Printing
import FishCheck.Proofs.Document.Lines
import Mathlib.Data.List.Forall2

/-!
# Diagnostics on whole lines

The checker counts lines from one and knows nothing of the text that the editor holds, which
may be shorter by now.  A diagnostic covers the line with the reported number, or the last one
when there is none, and a report of the command line counts from one again.  This module shows
that a diagnostic always marks one whole line of the document, that the numbers of a report
are those of that line, and that none of the counts leaves its word.

Main results:

- Theorem `marks_ofComplaint`: the diagnostic of a complaint marks one whole line.
- Theorem `diagnosticLine_of_marks`: what a report says about it.
- Theorem `wholeLine_eq`, `reported_eq`: the same on words of 32 bits.
- Theorem `diagnostics_mark_lines`: linting gives one such diagnostic for each complaint.
-/

namespace FishCheck

/-! ## Marks -/

/-- A diagnostic marks a line of a document: it is about the whole of it and nothing else. -/
structure Diagnostic.Marks (g : Diagnostic) (d : Document) (n : Nat) : Prop where
  lt_lineCount : n < d.lineCount
  start : g.range.start = ⟨n, 0⟩
  stop : g.range.stop = ⟨n, d.lineLength n⟩
  clamped : d.clampRange g.range = g.range
  line? : d.line? n = some (d.slice g.range)

namespace Diagnostic

theorem range_ofComplaint (c : Complaint) (d : Document) :
    (ofComplaint c d).range = d.lineRange (min (c.line - 1) d.lastLine) := rfl

/-- The diagnostic of a complaint marks one whole line, the last one when the document is
shorter than the complaint says. -/
theorem marks_ofComplaint {c : Complaint} (h : 1 ≤ c.line) (d : Document) :
    (ofComplaint c d).Marks d (min c.line d.lineCount - 1) := by
  have hline : min (c.line - 1) d.lastLine = min c.line d.lineCount - 1 := by
    have hcount := d.lineCount_eq_succ
    omega
  have hle : min c.line d.lineCount - 1 ≤ d.lastLine := by
    rw [← hline]
    exact Nat.min_le_right _ _
  have hrange : (ofComplaint c d).range = d.lineRange (min c.line d.lineCount - 1) := by
    rw [range_ofComplaint, hline]
  constructor
  · exact Nat.lt_of_le_of_lt hle d.lastLine_lt_lineCount
  · rw [hrange, Document.lineRange]
  · rw [hrange, Document.lineRange]
  · rw [hrange]
    exact Document.clampRange_of_containsRange (Document.containsRange_lineRange hle)
  · rw [hrange]
    exact Document.line?_eq_slice hle

end Diagnostic

/-- A report gives the number of the marked line, counted from one, and the first column. -/
theorem Check.diagnosticLine_of_marks {g : Diagnostic} {d : Document} {n : Nat}
    (h : g.Marks d n) (p : Palette) (path : Path) :
    diagnosticLine p path g = Command.line (p.file path.toText ++ ":" ++
      p.place (Text.decimal (n + 1)) ++ ":" ++ p.place "1" ++ ": " ++ g.message ++ " " ++
      p.remark ("[" ++ Diagnostic.source ++ "]")) := by
  have hone : Text.decimal (0 + 1) = "1" := by
    rw [Text.decimal]
    rfl
  rw [diagnosticLine, h.start, hone]

/-! ## Marks in words -/

namespace ByteIndex

/-- One less, or zero. -/
def pred (a : UInt32) : UInt32 := if a = 0 then 0 else a - 1

/-- The selection of the line with a number, counted from one, or of the last line. -/
def wholeLine (d : ByteIndex) (number : UInt32) : Except Fault Selection :=
  let line := min (pred number) d.lastLine
  (d.lineLength line).map fun length => ⟨⟨line, 0⟩, ⟨line, length⟩⟩

/-- The line and the column that a report gives a cursor, both counted from one. -/
def reported (p : Cursor) : Except Fault (UInt32 × UInt32) := do
  let line ← add p.line 1
  let column ← add p.character 1
  .ok (line, column)

theorem toNat_pred (a : UInt32) : (pred a).toNat = a.toNat - 1 := by
  unfold pred
  split
  · rename_i hzero
    rw [hzero]
    rfl
  · rename_i hpos
    have hone : (1 : UInt32) ≤ a := by
      rw [UInt32.le_iff_toNat_le]
      have hne : a.toNat ≠ 0 := fun h => hpos (UInt32.toNat_inj.1 h)
      exact Nat.one_le_iff_ne_zero.2 hne
    rw [UInt32.toNat_sub_of_le _ _ hone]
    rfl

section Bounded

variable {t : Text} (h : Utf8.size t < 2 ^ 32 - 1)
include h

/-- Selecting the line of a number never fails and selects the range of the diagnostic. -/
theorem wholeLine_eq (number : UInt32) :
    ∃ s, (ofText t).wholeLine number = .ok s ∧
      s.range = (Document.mk t).lineRange (min (number.toNat - 1) (Document.mk t).lastLine) := by
  obtain ⟨length, hlength, htoNat⟩ := lineLength_eq h (min (pred number) (ofText t).lastLine)
  have hline : (min (pred number) (ofText t).lastLine).toNat =
      min (number.toNat - 1) (Document.mk t).lastLine := by
    rw [toNat_min, toNat_pred, toNat_lastLine h]
  rw [hline] at htoNat
  rw [wholeLine, hlength]
  refine ⟨_, rfl, ?_⟩
  rw [Selection.range, Cursor.position, Cursor.position, hline, htoNat]
  rfl

/-- Counting the start of a line from one never overflows, since the number of lines fits its
word. -/
theorem reported_eq {p : Cursor} {n : Nat} (hp : p.position = ⟨n, 0⟩)
    (hn : n < (Document.mk t).lineCount) :
    ∃ line, reported p = .ok (line, 1) ∧ line.toNat = n + 1 := by
  obtain ⟨hline, hcharacter⟩ := Position.mk.inj hp
  have hcount := (ofText t).lineCount.toNat_lt
  have hone : (1 : UInt32).toNat = 1 := rfl
  rw [toNat_lineCount h] at hcount
  obtain ⟨hadd, hsum⟩ := add_of_lt (a := p.line) (b := 1) (by omega)
  have hfirst : p.character = 0 := UInt32.toNat_inj.1 hcharacter
  rw [reported, hadd, ok_bind, hfirst]
  exact ⟨p.line + 1, rfl, by rw [hsum, hline, hone]⟩

end Bounded

end ByteIndex

/-! ## Linting -/

namespace Lint

/-- Every complaint that is read counts its line from one, in a word. -/
theorem line_of_mem_readFor {c : Complaint} {output : Text} {document : Path}
    {home : Option Path} (h : c ∈ Complaint.readFor output document home) :
    1 ≤ c.line ∧ c.line < 2 ^ 32 := by
  have hread : c ∈ Complaint.readAll output := (List.mem_filter.1 h).1
  have hprintable := Complaint.printable_of_mem_readAll hread
  exact ⟨hprintable.one_le_line, hprintable.line_lt⟩

/-- The diagnostic of a complaint marks the line with its number, or the last one of a shorter
document, and a report of the command line gives that line's number and the first column.  On
words of 32 bits neither the line nor the number of the report ever overflows.  Linting a
document with a path runs the checker on it and gives one such diagnostic for each complaint
about the document, in order, whatever the checker writes and with whatever exit code. -/
theorem diagnostics_mark_lines (t : Text) (h : Utf8.size t < 2 ^ 32 - 1) :
    let d := Document.mk t
    (∀ c : Complaint, 1 ≤ c.line →
      (Diagnostic.ofComplaint c d).Marks d (min c.line d.lineCount - 1) ∧
      ∀ (p : Palette) (path : Path), Check.diagnosticLine p path (Diagnostic.ofComplaint c d) =
        Command.line (p.file path.toText ++ ":" ++
          p.place (Text.decimal (min c.line d.lineCount)) ++ ":" ++ p.place "1" ++ ": " ++
          c.message ++ " " ++ p.remark ("[" ++ Diagnostic.source ++ "]"))) ∧
    (∀ (c : Complaint) (number : UInt32), number.toNat = c.line → 1 ≤ c.line →
      ∃ s line, (ByteIndex.ofText t).wholeLine number = .ok s ∧
        s.range = (Diagnostic.ofComplaint c d).range ∧
        ByteIndex.reported s.start = .ok (line, 1) ∧ line.toNat = min c.line d.lineCount) ∧
    (∀ (home : Option Path) (path : Path) (completion : Completion),
      ∃ ds, conclude home t path (.ok completion) = .ok ds ∧
        (∀ (σ : Type) (runTool : σ → Invocation → σ × Outcome) (s : Settings) (cwd : Option Path)
          (r : Request) (world after : σ), r.text = t → r.target? = some path →
          runTool world (invocation s cwd path) = (after, .ok completion) →
          run runTool s cwd home r world = (after, .ok (some ds))) ∧
        List.Forall₂ (fun c g => 1 ≤ c.line ∧ c.line < 2 ^ 32 ∧ g.message = c.message ∧
            g.Marks d (min c.line d.lineCount - 1))
          (Complaint.readFor completion.stderr path home) ds) ∧
    (ByteIndex.ofText t).Represents d := by
  intro d
  have hnumber : ∀ c : Complaint, 1 ≤ c.line → min c.line d.lineCount - 1 + 1 =
      min c.line d.lineCount := by
    intro c hc
    have hpos := d.lineCount_pos
    omega
  refine ⟨fun c hc => ⟨Diagnostic.marks_ofComplaint hc d, fun p path => ?_⟩,
    fun c number heq hc => ?_, fun home path completion => ?_, ByteIndex.represents_ofText h⟩
  · have hmarks := Diagnostic.marks_ofComplaint hc d
    rw [Check.diagnosticLine_of_marks hmarks, hnumber c hc, Diagnostic.ofComplaint_message]
  · obtain ⟨s, hselect, hrange⟩ := ByteIndex.wholeLine_eq h number
    rw [heq, ← Diagnostic.range_ofComplaint] at hrange
    have hmarks := Diagnostic.marks_ofComplaint hc d
    have hstart : s.start.position = ⟨min c.line d.lineCount - 1, 0⟩ := by
      rw [← hmarks.start, ← hrange]
      rfl
    obtain ⟨line, hreported, hline⟩ := ByteIndex.reported_eq h hstart hmarks.lt_lineCount
    exact ⟨s, line, hselect, hrange, hreported, by rw [hline, hnumber c hc]⟩
  · refine ⟨diagnostics home t path completion.stderr, rfl, ?_, ?_⟩
    · rintro σ runTool s cwd r world after rfl htarget hrun
      rw [run_of_target htarget, hrun]
      rfl
    · rw [diagnostics, List.forall₂_map_right_iff, List.forall₂_same]
      intro c hc
      obtain ⟨hpos, hlt⟩ := line_of_mem_readFor hc
      exact ⟨hpos, hlt, rfl, Diagnostic.marks_ofComplaint hpos d⟩

/-- Two errors on the last line of a document that ends before one of them, and the largest
number that is read. -/
theorem diagnostics_mark_lines_past_end :
    let t : Text := "if true\r\n  echo😀"
    let d := Document.mk t
    let first : Complaint := ⟨"/tmp/a.fish", 40, "Missing end"⟩
    let second : Complaint := ⟨"/tmp/a.fish", 2, "oops"⟩
    let stderr := Text.closeLines [first.toLine, second.toLine]
    let url : Url := ⟨"file", some ⟨[], [], []⟩, "/tmp/a.fish", none, none⟩
    let r : Request := ⟨url, t, "fish", true⟩
    let runTool : Nat → Invocation → Nat × Outcome := fun n _ => (n + 1, .ok ⟨127, [], stderr⟩)
    Utf8.size t < 2 ^ 32 - 1 ∧
      (1 ≤ first.line ∧ (Diagnostic.ofComplaint first d).Marks d 1 ∧
        Check.diagnosticLine {} "a.fish" (Diagnostic.ofComplaint first d) =
          "a.fish:2:1: Missing end [fish]\n") ∧
      ((4294967295 : UInt32).toNat = 4294967295 ∧
        ∃ s line, (ByteIndex.ofText t).wholeLine 4294967295 = .ok s ∧
          ByteIndex.reported s.start = .ok (line, 1) ∧ line.toNat = 2) ∧
      r.target? = some "/tmp/a.fish" ∧
      ∃ g g', conclude none t "/tmp/a.fish" (.ok ⟨127, [], stderr⟩) = .ok [g, g'] ∧
        run runTool {} none none r 0 = (1, .ok (some [g, g'])) ∧
        g.message = first.message ∧ g'.message = second.message ∧ g.Marks d 1 ∧ g'.Marks d 1 := by
  intro t d first second stderr url r runTool
  have hsize : Utf8.size t < 2 ^ 32 - 1 := by decide +kernel
  have hcount : d.lineCount = 2 := by decide +kernel
  have hfirst : 1 ≤ first.line := by decide
  have hlast : min first.line d.lineCount = 2 := by rw [hcount]; decide
  have hread : Complaint.readFor stderr "/tmp/a.fish" none = [first, second] := by decide +kernel
  obtain ⟨hmarks, hwords, hlint, -⟩ := diagnostics_mark_lines t hsize
  obtain ⟨hmark, hline⟩ := hmarks first hfirst
  obtain ⟨s, line, hselect, -, hreported, hnumber⟩ :=
    hwords ⟨[], 4294967295, []⟩ 4294967295 rfl (by decide)
  have htarget : r.target? = some "/tmp/a.fish" := by decide +kernel
  obtain ⟨ds, hconclude, hrun, hds⟩ := hlint none "/tmp/a.fish" ⟨127, [], stderr⟩
  have hgiven := hrun Nat runTool {} none r 0 1 rfl htarget rfl
  change List.Forall₂ _ (Complaint.readFor stderr "/tmp/a.fish" none) ds at hds
  rw [hread] at hds
  obtain _ | ⟨⟨-, -, hmessage, hg⟩, _ | ⟨⟨-, -, hmessage', hg'⟩, _ | _⟩⟩ := hds
  have htwo : Text.decimal 2 = "2" := by
    rw [Text.decimal]
    rfl
  refine ⟨hsize, ⟨hfirst, ?_, ?_⟩, ⟨rfl, s, line, hselect, hreported, ?_⟩,
    htarget, _, _, hconclude, hgiven, hmessage, hmessage', ?_, ?_⟩
  · rwa [hlast] at hmark
  · exact (hline {} "a.fish").trans (by rw [hlast, htwo]; decide +kernel)
  · exact hnumber.trans (by rw [hcount]; decide)
  · rwa [hlast] at hg
  · rwa [hcount] at hg'

end Lint

end FishCheck
