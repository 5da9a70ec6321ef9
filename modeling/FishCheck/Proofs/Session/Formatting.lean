import FishCheck.Proofs.Document.Offsets
import FishCheck.Proofs.Session.History

/-!
# What formatting does to a document

A formatting request hands a stretch of a document to the formatter and is answered with
edits.  Whatever happens between the request and the end of its formatter run, the answer
is about the document as it was when the request came.  Carrying the answer out replaces
the stretch by the formatter's output and leaves every byte around it alone.

Main results:

- Theorem `formatOf_run`: a request stays under way until it is answered or taken back.
- Theorem `encode_applyTo`: an edit replaces the bytes between the offsets of its ends.
- Theorem `formatting_exact`: what the formatter reads, and what its answer makes of the
  document, for every range and every outcome.
-/

namespace FishCheck

namespace Format

/-- A document after the edits that a request was answered with, one after the other. -/
def revised (d : Document) : Option (List Edit) → Text
  | none => d.text
  | some edits => edits.foldl (fun t e => e.applyTo ⟨t⟩) d.text

/-- The range to format lies in the document. -/
theorem containsRange_target (d : Document) (range? : Option Range) :
    d.ContainsRange (target d range?) := by
  cases range? with
  | none => exact d.containsRange_fullRange
  | some range => exact d.containsRange_clampRange range

/-- An edit replaces the bytes between the offsets of its ends. -/
theorem encode_applyTo (e : Edit) (d : Document) :
    Utf8.encode (e.applyTo d) =
      (Utf8.encode d.text).take (d.offsetAt e.range.start) ++ Utf8.encode e.newText ++
        (Utf8.encode d.text).drop (d.offsetAt e.range.stop) := by
  rw [Edit.applyTo, Utf8.encode_append, Utf8.encode_append, Document.encode_take,
    Document.encode_drop]
  rfl

/-- Replacing a slice by itself changes nothing. -/
theorem applyTo_slice {d : Document} {range : Range} (h : d.ContainsRange range) :
    (Edit.mk range (d.slice range)).applyTo d = d.text := by
  have hindex := d.indexAt_mono h.2.2
  rw [Edit.applyTo, Document.slice_of_containsRange h]
  have htake : d.text.take (d.indexAt range.start) =
      (d.text.take (d.indexAt range.stop)).take (d.indexAt range.start) := by
    rw [List.take_take, Nat.min_eq_left hindex]
  simp only [htake, List.take_append_drop]

/-- Replacing the whole document leaves nothing of it. -/
theorem applyTo_fullRange (d : Document) (t : Text) : (Edit.mk d.fullRange t).applyTo d = t := by
  simp only [Edit.applyTo, Document.fullRange, Document.indexAt_origin, Document.indexAt_stop]
  simp

end Format

namespace Session

/-! ## Requests under way -/

/-- Whether an event answers a formatting request or takes it back. -/
def Event.settles (request : RequestId) : Event → Bool
  | .formatted r _ => r = request
  | .cancelled r => r = request
  | _ => false

/-- The formatter run of a request, if it is under way. -/
def formatOf (s : Session) (request : RequestId) : Option FormatRun :=
  s.formats.find? fun run => run.request = request

/-- Removing the run of one request keeps the runs of the others. -/
theorem find_filter_of_ne {runs : List FormatRun} {request other : RequestId}
    (hne : other ≠ request) :
    (runs.filter fun run => run.request ≠ other).find? (fun run => run.request = request) =
      runs.find? fun run => run.request = request := by
  rw [List.find?_filter]
  congr 1
  funext run
  by_cases h : run.request = request
  · have hkept : run.request ≠ other := by
      rw [h]
      exact hne.symm
    simp [h, hne.symm]
  · simp [h]

/-- A request stays under way through every event that does not settle it. -/
theorem formatOf_step {s : Session} {request : RequestId} {run : FormatRun}
    (h : s.formatOf request = some run) {e : Event} (he : e.settles request = false) :
    (s.step e).1.formatOf request = some run := by
  cases e with
  | opened u text language version =>
    have hcases :=
      startCheck_cases { s with documents := s.documents.opened u text language version } u
    rcases hcases with
      hstep | ⟨-, hstep⟩ | ⟨_, _, -, -, hstep⟩ <;> simpa [step, hstep, formatOf] using h
  | saved u text? =>
    rcases startCheck_cases { s with documents := s.documents.saved u text? } u with
      hstep | ⟨-, hstep⟩ | ⟨_, _, -, -, hstep⟩ <;> simpa [step, hstep, formatOf] using h
  | changed u texts version => exact h
  | closed u => exact h
  | checked generation outcome =>
    simp only [step, finishCheck]
    split
    · exact h
    · exact h
  | formatRequested other u range? =>
    simp only [step, startFormat]
    split
    · split
      · exact h
      · split
        · unfold formatOf at h ⊢
          rw [List.find?_append, h]
          rfl
        · exact h
    · exact h
  | formatted other outcome =>
    have hne : other ≠ request := by simpa [Event.settles] using he
    simp only [step, finishFormat]
    split
    · exact h
    · exact (find_filter_of_ne hne).trans h
  | cancelled other =>
    have hne : other ≠ request := by simpa [Event.settles] using he
    exact (find_filter_of_ne hne).trans h

/-- A request stays under way until it is answered or taken back. -/
theorem formatOf_run {s : Session} {request : RequestId} {run : FormatRun}
    (h : s.formatOf request = some run) {es : List Event}
    (hes : ∀ e ∈ es, e.settles request = false) :
    (s.run es).1.formatOf request = some run := by
  induction es generalizing s with
  | nil => exact h
  | cons e es ih =>
    have hstep := formatOf_step h (hes e List.mem_cons_self)
    exact ih hstep fun f hf => hes f (List.mem_cons_of_mem e hf)

/-- A request for an open fish document starts a formatter run on the stored text. -/
theorem step_formatRequested {s : Session} {u : Url} {entry : Entry} (request : RequestId)
    (range? : Option Range) (hon : s.settings.enableFormatting = true)
    (hopen : s.documents.get? u = some entry)
    (hfish : Lint.isFishDocument u entry.language = true) :
    s.step (.formatRequested request u range?) =
      ({ s with formats := s.formats ++
          [⟨request, ⟨entry.text⟩, Format.target ⟨entry.text⟩ range?⟩] },
        [.format request (Format.invocation s.settings s.root ⟨entry.text⟩
          (Format.target ⟨entry.text⟩ range?))]) := by
  simp [step, startFormat, hon, hopen, hfish]

/-- The end of a formatter run answers the request of that run. -/
theorem step_formatted {s : Session} {request : RequestId} {run : FormatRun}
    (h : s.formatOf request = some run) (outcome : Outcome) :
    (s.step (.formatted request outcome)).2 = formatAnswer run outcome := by
  unfold formatOf at h
  simp [step, finishFormat, h]

/-! ## The answer -/

/-- The edits of a successful run put the formatter's output in the place of the formatted
range, and there are none exactly when the output is what stood there. -/
theorem revised_editsOf {d : Document} {range : Range} (h : d.ContainsRange range)
    (output : Text) :
    Format.revised d (some (editsOf d ⟨range, output⟩)) =
        (Format.Edit.mk range output).applyTo d ∧
      (editsOf d ⟨range, output⟩ = [] ↔ output = d.slice range) := by
  unfold editsOf
  by_cases heq : d.slice range = output
  · subst heq
    simp [Format.revised, Format.applyTo_slice h]
  · simp [Format.revised, heq, Ne.symm heq]

/-- The formatter reads exactly the bytes of the requested range, clamped to the document,
and a successful run makes the document its output between the bytes around that range;
there is no edit exactly when the output is what stood there.  A run that rejects the text
leaves it alone, and so does one that could not be run, which alone is reported.  All this
is about the document as it was when the request came, whatever happens meanwhile. -/
theorem formatting_exact (s : Session) (request : RequestId) (u : Url) (entry : Entry)
    (range? : Option Range) (es : List Event) (outcome : Outcome)
    (hon : s.settings.enableFormatting = true)
    (hopen : s.documents.get? u = some entry)
    (hfish : Lint.isFishDocument u entry.language = true)
    (hnew : ∀ run ∈ s.formats, run.request ≠ request)
    (hes : ∀ e ∈ es, e.settles request = false) :
    let d : Document := ⟨entry.text⟩
    let start := d.offsetAt (Format.target d range?).start
    let stop := d.offsetAt (Format.target d range?).stop
    let bytes := Utf8.encode entry.text
    let asked := s.step (.formatRequested request u range?)
    let answer := ((asked.1.run es).1.step (.formatted request outcome)).2
    start ≤ stop ∧ stop ≤ bytes.length ∧ (range? = none → start = 0 ∧ stop = bytes.length) ∧
    ∃ input : Text,
      asked.2 = [.format request
        ⟨s.settings.formatter, s.settings.formatterArgs, some input, s.root, s.settings.limit⟩] ∧
      Utf8.encode input = (bytes.take stop).drop start ∧
      match outcome with
      | .ok completion =>
        if completion.exitCode = 0 then
          ∃ edits, answer = [.answer request (some edits)] ∧
            Utf8.encode (Format.revised d (some edits)) =
              bytes.take start ++ Utf8.encode completion.stdout ++ bytes.drop stop ∧
            (range? = none → Format.revised d (some edits) = completion.stdout) ∧
            (edits = [] ↔ completion.stdout = input)
        else answer = [.answer request none]
      | .error (.nonZeroExit _) => answer = [.answer request none]
      | .error f => answer = [.showError (formattingUnavailable f), .answer request none] := by
  intro d start stop bytes asked answer
  have hrange : d.ContainsRange (Format.target d range?) := Format.containsRange_target d range?
  have hsize : bytes.length = Utf8.size entry.text := Utf8.length_encode entry.text
  have hasked := step_formatRequested request range? hon hopen hfish
  have hfound : asked.1.formatOf request = some ⟨request, d, Format.target d range?⟩ := by
    have hnone : s.formats.find? (fun run => run.request = request) = none := by
      simpa using hnew
    change (s.step (.formatRequested request u range?)).1.formatOf request = _
    rw [hasked]
    simp [formatOf, hnone, d]
  have hanswer : answer = formatAnswer ⟨request, d, Format.target d range?⟩ outcome :=
    step_formatted (formatOf_run hfound hes) outcome
  refine ⟨d.offsetAt_mono hrange.2.2, ?_, ?_, d.slice (Format.target d range?), ?_,
    Document.encode_slice hrange, ?_⟩
  · rw [hsize]
    exact d.offsetAt_le_size _
  · rintro rfl
    rw [hsize]
    exact ⟨d.offsetAt_origin, d.offsetAt_stop⟩
  · change (s.step (.formatRequested request u range?)).2 = _
    rw [hasked]
    rfl
  · rw [hanswer]
    cases outcome with
    | ok completion =>
      simp only
      split
      · rename_i hzero
        obtain ⟨hrevised, hnil⟩ := revised_editsOf hrange completion.stdout
        refine ⟨editsOf d ⟨Format.target d range?, completion.stdout⟩, ?_, ?_, ?_, hnil⟩
        · simp only [formatAnswer, Format.conclude_ok _ _ hzero]
        · rw [hrevised, Format.encode_applyTo]
        · rintro rfl
          rw [hrevised]
          exact Format.applyTo_fullRange d completion.stdout
      · rename_i hcode
        simp only [formatAnswer, Format.conclude_rejected _ _ hcode]
    | error f => cases f <;> rfl

/-- A range that ends inside a pair of surrogates is formatted while the document is
changed behind its back. -/
theorem formatting_exact_pair :
    let u : Url := ⟨"file", some ⟨[], [], []⟩, "/a.fish", none, none⟩
    let entry : Entry := ⟨"echo 😀  a\r\n", "fish", 1, true⟩
    let s : Session := { documents := ⟨[(u, entry)]⟩ }
    let request := RequestId.number 1
    let es : List Event := [.changed u ["true"] 2]
    let asked := s.step (.formatRequested request u (some ⟨⟨0, 5⟩, ⟨0, 6⟩⟩))
    s.settings.enableFormatting = true ∧ s.documents.get? u = some entry ∧
      Lint.isFishDocument u entry.language = true ∧
      (∀ run ∈ s.formats, run.request ≠ request) ∧
      (∀ e ∈ es, e.settles request = false) ∧
      ∃ edits, ((asked.1.run es).1.step (.formatted request (.ok ⟨0, "x", []⟩))).2 =
          [.answer request (some edits)] ∧
        Format.revised ⟨entry.text⟩ (some edits) = "echo x  a\r\n".toList := by
  intro u entry s request es asked
  have hon : s.settings.enableFormatting = true := rfl
  have hopen : s.documents.get? u = some entry := by decide +kernel
  have hfish : Lint.isFishDocument u entry.language = true := by decide +kernel
  have hnew : ∀ run ∈ s.formats, run.request ≠ request := by simp [s]
  have hes : ∀ e ∈ es, e.settles request = false := by simp [es, Event.settles]
  obtain ⟨-, -, -, input, -, -, edits, hanswer, hrevised, -⟩ :=
    formatting_exact s request u entry (some ⟨⟨0, 5⟩, ⟨0, 6⟩⟩) es (.ok ⟨0, "x", []⟩)
      hon hopen hfish hnew hes
  refine ⟨hon, hopen, hfish, hnew, hes, edits, hanswer, ?_⟩
  rw [← Utf8.lenient_encode (Format.revised _ _), hrevised]
  decide +kernel

end Session

end FishCheck
