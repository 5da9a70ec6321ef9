import FishCheck.Proofs.Session.Turns

/-!
# Documents do not disturb each other

All documents share one counter, one list of runs under way and one connection to the
tools.  Still only the turns of a document matter to it.  A standing is all that a session
holds about a document, without numbers.  A turn of the document changes its standing in a
way that only the standing decides, and any other moment leaves it alone.  So two runs with
the same turns of a document look the same to it, however much the rest of them differs.

Main results:

- Theorem `Linked.standing_of_turn`: a turn takes the standing of its document further,
  and what is said about the document follows from the standing.
- Theorem `Linked.standing_of_other`: other moments neither change the standing of a
  document nor say anything about it.
- Theorem `tracked_history`: a run takes a document as far as its turns do.
- Theorem `documents_isolated`: every run can be cut down to the turns of one document,
  and all runs with the same turns store and say the same about it.
-/

namespace FishCheck

namespace Session

/-! ## Standings -/

/-- A checker run of a document without its number. -/
structure Errand where
  path : Path
  entry : Entry
  underWay : Bool
deriving DecidableEq, Repr

/-- The errand of a run, given the runs under way. -/
def Errand.of (checks : List CheckRun) (run : CheckRun) : Errand :=
  ⟨run.path, run.entry, run ∈ checks⟩

/-- The notices of an errand that is still current when it ends. -/
def Errand.verdict (home : Option Path) (a : Errand) (outcome : Outcome) : List Notice :=
  match Lint.conclude home a.entry.text a.path outcome with
  | .ok diagnostics => [.publication diagnostics (some a.entry.version)]
  | .error f => [.failure (lintingUnavailable f), .publication [] (some a.entry.version)]

/-- All that a session holds about a document, and the settings that apply to it. -/
structure Standing where
  settings : Settings
  root : Option Path
  home : Option Path
  stored? : Option Entry
  /-- The runs of the document in the order of their starts. -/
  errands : List Errand
  /-- The place of the run that may still publish. -/
  current? : Option Nat
deriving DecidableEq, Repr

/-- The place of the run whose start is the last mark of a document. -/
def currentPlace? (u : Url) (H : List Moment) : Option Nat :=
  ((lastMark u H).bind Mark.run?).map (startsOf u H).idxOf

/-- Where a document stands in a session with a history. -/
def Standing.of (u : Url) (H : List Moment) (s : Session) : Standing where
  settings := s.settings
  root := s.root
  home := s.home
  stored? := s.documents.get? u
  errands := (startsOf u H).map (Errand.of s.checks)
  current? := currentPlace? u H

/-- The run that linting a document starts, if there is anything to lint. -/
def errand? (settings : Settings) (u : Url) (stored? : Option Entry) : Option Errand :=
  if settings.enableLinting then do
    let e ← stored?
    let path ← (⟨u, e.text, e.language, e.saved⟩ : Lint.Request).target?
    return ⟨path, e, true⟩
  else none

namespace Standing

/-- Lints the document. -/
def launch (u : Url) (σ : Standing) : Standing × List Notice :=
  match errand? σ.settings u σ.stored? with
  | none => (σ, [])
  | some a =>
    ({ σ with errands := σ.errands ++ [a], current? := some σ.errands.length },
      [.invocation (Lint.invocation σ.settings σ.root a.path)])

/-- Ends the run at a place. -/
def finish (σ : Standing) (place : Nat) (outcome : Outcome) : Standing × List Notice :=
  match σ.errands[place]? with
  | none => (σ, [])
  | some a =>
    ({ σ with errands := σ.errands.set place { a with underWay := false } },
      if σ.current? = some place then a.verdict σ.home outcome else [])

/-- Takes one turn. -/
def take (u : Url) (σ : Standing) : Turn → Standing × List Notice
  | .edit event =>
    let σ := { σ with stored? := event.rewrite σ.stored? }
    match event with
    | .opened .. | .saved .. => σ.launch u
    | .closed _ => ({ σ with current? := none }, [.publication [] none])
    | _ => (σ, [])
  | .ending place outcome => σ.finish place outcome

/-- Takes turns in order, writing the log of the document. -/
def run (u : Url) (σ : Standing) : List Turn → Standing × List (Option Entry × List Notice)
  | [] => (σ, [])
  | t :: ts =>
    let (σ, said) := σ.take u t
    let (τ, rest) := σ.run u ts
    (τ, (σ.stored?, said) :: rest)

theorem run_concat (u : Url) (σ : Standing) (ts : List Turn) (t : Turn) :
    σ.run u (ts ++ [t]) =
      (((σ.run u ts).1.take u t).1,
        (σ.run u ts).2 ++ [(((σ.run u ts).1.take u t).1.stored?, ((σ.run u ts).1.take u t).2)]) := by
  induction ts generalizing σ with
  | nil => rfl
  | cons t' ts ih => simp [run, ih]

end Standing

/-! ## Linting and errands -/

/-- Linting starts a run for the errand that the settings and the stored document give,
and without an errand it does nothing that can be seen. -/
theorem startCheck_errand (s : Session) (u : Url) :
    match errand? s.settings u (s.documents.get? u) with
    | none => (s.startCheck u).1.checks = s.checks ∧ (s.startCheck u).2 = []
    | some a =>
      a.underWay = true ∧
        (s.startCheck u).1.checks = s.checks ++ [⟨s.generations.next, u, a.path, a.entry⟩] ∧
        (s.startCheck u).2 =
          [.check s.generations.next (Lint.invocation s.settings s.root a.path)] := by
  unfold startCheck errand?
  cases s.settings.enableLinting with
  | false => simp
  | true =>
    cases s.documents.get? u with
    | none => simp
    | some e =>
      by_cases heligible : (⟨u, e.text, e.language, e.saved⟩ : Lint.Request).isEligible = true
      · cases hpath : u.toPath? <;> simp [Lint.Request.target?, heligible, hpath]
      · simp [Lint.Request.target?, heligible]

/-! ## Standings in histories that grow -/

section Standings

variable {u : Url} {H : List Moment} {s : Session} {m : Moment}

/-- A moment that leaves no mark of a document changes at most what is stored for it and
which of its runs are under way. -/
theorem Standing.of_concat_of_unmarked (hmarks : m.marks u = []) :
    Standing.of u (H ++ [m]) m.after =
      { Standing.of u H m.before with
        stored? := m.after.documents.get? u
        errands := (startsOf u H).map (Errand.of m.after.checks) } := by
  have hstarted : m.started.filter (fun run => run.url = u) = [] :=
    List.map_eq_nil_iff.1 (List.append_eq_nil_iff.1 hmarks).2
  have hstarts : startsOf u (H ++ [m]) = startsOf u H := by
    rw [startsOf_concat, hstarted, List.append_nil]
  obtain ⟨hsettings, hroot, hhome⟩ := setUp_step m.before m.event
  rw [Standing.of, currentPlace?, lastMark_concat_of_nil H hmarks, hstarts]
  simp only [Moment.after, hsettings, hroot, hhome]
  rfl

/-- If moreover the same runs of the document are under way, only what is stored for it
may change. -/
theorem Standing.of_concat_of_same (hmarks : m.marks u = [])
    (hchecks : ∀ run ∈ startsOf u H, (run ∈ m.after.checks ↔ run ∈ m.before.checks)) :
    Standing.of u (H ++ [m]) m.after =
      { Standing.of u H m.before with stored? := m.after.documents.get? u } := by
  have herrands : (startsOf u H).map (Errand.of m.after.checks) =
      (startsOf u H).map (Errand.of m.before.checks) :=
    List.map_congr_left fun run hrun => by simp only [Errand.of, hchecks run hrun]
  rw [Standing.of_concat_of_unmarked hmarks, herrands]
  rfl

/-- The run at the current place is the one whose start is the last mark. -/
theorem currentPlace_eq_some_iff {run : CheckRun} :
    currentPlace? u H = some ((startsOf u H).idxOf run) ↔
      lastMark u H = some (.start run) := by
  unfold currentPlace?
  cases hmark : lastMark u H with
  | none => simp
  | some mark =>
    cases mark with
    | closing => simp [Mark.run?]
    | start other =>
      have hinj := List.idxOf_inj (l := startsOf u H) (y := run) (mem_startsOf_of_lastMark hmark)
      simp [Mark.run?, hinj]

/-- The start of a run of a document adds an errand, and this one is current. -/
theorem Linked.standing_of_start (h : Linked H m.before) {run : CheckRun}
    (hclosings : m.closings u = []) (hnumber : run.generation = m.before.generations.next)
    (hurl : run.url = u) (hchecks : m.after.checks = m.before.checks ++ [run]) :
    Standing.of u (H ++ [m]) m.after =
      { Standing.of u H m.before with
        stored? := m.after.documents.get? u
        errands := (Standing.of u H m.before).errands ++ [⟨run.path, run.entry, true⟩]
        current? := some (Standing.of u H m.before).errands.length } := by
  have hfresh : run ∉ startsOf u H := fun hmem =>
    h.not_mem_starts_of_fresh hnumber (mem_startsOf.1 hmem).1
  have hstarted : m.started = [run] :=
    Moment.started_eq_singleton hchecks (h.not_mem_checks_of_fresh hnumber)
  have hmarks : m.marks u = [.start run] := by
    simp [Moment.marks, hclosings, hstarted, hurl]
  have hstarts : startsOf u (H ++ [m]) = startsOf u H ++ [run] := by
    simp [startsOf_concat, hstarted, hurl]
  have hold : ∀ r ∈ startsOf u H, Errand.of m.after.checks r = Errand.of m.before.checks r := by
    intro r hr
    have hne : r ≠ run := fun heq => hfresh (heq ▸ hr)
    simp [Errand.of, hchecks, hne]
  have hnew : Errand.of m.after.checks run = ⟨run.path, run.entry, true⟩ := by
    simp [Errand.of, hchecks]
  have hplace : currentPlace? u (H ++ [m]) = some (startsOf u H).length := by
    simp [currentPlace?, lastMark_concat_of_singleton H hmarks, Mark.run?, hstarts,
      List.idxOf_append_of_notMem hfresh]
  obtain ⟨hsettings, hroot, hhome⟩ := setUp_step m.before m.event
  rw [Standing.of, hplace, hstarts, List.map_append, List.map_congr_left hold,
    List.map_singleton, hnew]
  simp only [Moment.after, Standing.of, hsettings, hroot, hhome, List.length_map]

/-- Linting takes the standing of the linted document as far as the standing alone tells. -/
theorem Linked.standing_of_lint (h : Linked H m.before) (documents : Store)
    (hstep : m.before.step m.event =
      ({ m.before with documents := documents } : Session).startCheck u)
    (hclosings : m.closings u = []) :
    (Standing.of u (H ++ [m]) m.after, m.heard u) =
      { Standing.of u H m.before with stored? := m.after.documents.get? u }.launch u := by
  have hentry : m.after.documents.get? u = documents.get? u := by
    rw [Moment.after, hstep, startCheck_documents]
  have hsettings : (Standing.of u H m.before).settings = m.before.settings := rfl
  have hlint := startCheck_errand { m.before with documents := documents } u
  rw [← hstep] at hlint
  simp only [Standing.launch, hsettings, hentry]
  cases herrand : errand? m.before.settings u (documents.get? u) with
  | none =>
    simp only [herrand] at hlint
    have hchecks : m.after.checks = m.before.checks := hlint.1
    have heffects : m.effects = [] := hlint.2
    have hmarks : m.marks u = [] :=
      Moment.marks_eq_nil hclosings (Moment.started_of_same hchecks)
    have hstanding := Standing.of_concat_of_same (H := H) hmarks fun run _ => by rw [hchecks]
    have hheard : m.heard u = [] := by simp [Moment.heard, heffects]
    rw [hstanding, hentry, hheard]
    rfl
  | some a =>
    simp only [herrand] at hlint
    obtain ⟨hunder, hlint⟩ := hlint
    have hchecks : m.after.checks =
        m.before.checks ++ [⟨m.before.generations.next, u, a.path, a.entry⟩] := hlint.1
    have heffects : m.effects = [.check m.before.generations.next
        (Lint.invocation m.before.settings m.before.root a.path)] := hlint.2
    have hstarted := Moment.started_eq_singleton hchecks (h.not_mem_checks_of_fresh rfl)
    have hstanding := h.standing_of_start hclosings rfl rfl hchecks
    have hheard : m.heard u =
        [.invocation (Lint.invocation m.before.settings m.before.root a.path)] := by
      simp [Moment.heard, heffects, Moment.notice?, hstarted]
    rw [hstanding, hentry, hheard, ← hunder]
    rfl

/-- Closing a document leaves it without an entry and without a current run. -/
theorem Standing.of_concat_of_closing (hevent : m.event = .closed u) :
    (Standing.of u (H ++ [m]) m.after, m.heard u) =
      ({ Standing.of u H m.before with stored? := none, current? := none },
        [.publication [] none]) := by
  have hchecks : m.after.checks = m.before.checks := by simp [Moment.after, hevent, step]
  have hentry : m.after.documents.get? u = none := by
    simp [Moment.get_after, hevent, Event.edits, Event.rewrite]
  have hstarted : m.started = [] := Moment.started_of_same hchecks
  have hmarks : m.marks u = [.closing] := by
    simp [Moment.marks, hstarted, Moment.closings_of_event hevent]
  have hstarts : startsOf u (H ++ [m]) = startsOf u H := by simp [startsOf_concat, hstarted]
  have hplace : currentPlace? u (H ++ [m]) = none := by
    simp [currentPlace?, lastMark_concat_of_singleton H hmarks, Mark.run?]
  have hheard : m.heard u = [.publication [] none] := by
    simp [Moment.heard, Moment.effects, hevent, step, Moment.notice?]
  obtain ⟨hsettings, hroot, hhome⟩ := setUp_step m.before m.event
  rw [hheard, Standing.of, hentry, hplace, hstarts, hchecks]
  simp only [Moment.after, hsettings, hroot, hhome]
  rfl

/-- The errand of a run stands at the place of the run. -/
theorem Standing.errands_idxOf {run : CheckRun} (hrun : run ∈ startsOf u H) :
    (Standing.of u H s).errands[(startsOf u H).idxOf run]? = some (Errand.of s.checks run) := by
  have hget : (startsOf u H)[(startsOf u H).idxOf run]? = some run :=
    List.getElem?_idxOf hrun
  rw [Standing.of, List.getElem?_map, hget]
  rfl

/-- The end of a run ends the errand at its place and no other. -/
theorem Linked.errands_of_finish (h : Linked H m.before) {run : CheckRun}
    (hrun : run ∈ m.before.checks) (hurl : run.url = u)
    (hchecks : m.after.checks = m.before.checks.filter fun r => r.generation ≠ run.generation) :
    (startsOf u H).map (Errand.of m.after.checks) =
      ((startsOf u H).map (Errand.of m.before.checks)).set ((startsOf u H).idxOf run)
        { Errand.of m.before.checks run with underWay := false } := by
  have hmem : run ∈ startsOf u H := mem_startsOf.2 ⟨h.mem_starts hrun, hurl⟩
  have hnodup : (startsOf u H).Nodup := h.nodup_starts.filter _
  refine List.ext_getElem (by simp) fun i hi _ => ?_
  have hi : i < (startsOf u H).length := by simpa using hi
  obtain ⟨hstarted, -⟩ := mem_startsOf.1 (List.getElem_mem hi)
  have hplace : (startsOf u H).idxOf run = i ↔ (startsOf u H)[i] = run := by
    constructor
    · rintro rfl
      exact List.getElem_idxOf hi
    · rintro rfl
      exact hnodup.idxOf_getElem i hi
  have hnumber : (startsOf u H)[i].generation = run.generation ↔ (startsOf u H)[i] = run :=
    ⟨h.eq_of_generation hstarted (h.mem_starts hrun), fun heq => by rw [heq]⟩
  simp only [List.getElem_map, List.getElem_set, hplace]
  split
  · rename_i heq
    simp [heq, Errand.of, hchecks]
  · rename_i hne
    simp [Errand.of, hchecks, hnumber, hne]

/-- The verdict on a run says about its document what the verdict on its errand says. -/
theorem notices_verdict {run : CheckRun} {checks : List CheckRun} (hurl : run.url = u)
    (hended : m.endings u ≠ []) (outcome : Outcome) :
    (m.before.verdict run outcome).filterMap (m.notice? u) =
      (Errand.of checks run).verdict m.before.home outcome := by
  unfold verdict Errand.verdict
  cases outcome <;> simp [Lint.conclude, Except.map, Errand.of, Moment.notice?, hurl, hended]

/-- The end of a run takes the standing of its document as far as the standing alone
tells. -/
theorem Linked.standing_of_finish (h : Linked H m.before) {run : CheckRun} {outcome : Outcome}
    (hevent : m.event = .checked run.generation outcome) (hrun : run ∈ m.before.checks)
    (hurl : run.url = u)
    (hchecks : m.after.checks = m.before.checks.filter fun r => r.generation ≠ run.generation)
    (heffects : m.effects =
      if m.before.generations.isCurrent run.url run.generation then
        m.before.verdict run outcome
      else []) :
    (Standing.of u (H ++ [m]) m.after, m.heard u) =
      (Standing.of u H m.before).finish ((startsOf u H).idxOf run) outcome := by
  have hmem : run ∈ startsOf u H := mem_startsOf.2 ⟨h.mem_starts hrun, hurl⟩
  have hended : m.endings u ≠ [] := by
    simp [Moment.endings, h.ended_eq hevent hrun, hurl]
  have hmarks : m.marks u = [] :=
    Moment.marks_eq_nil (by simp [Moment.closings, hevent]) (Moment.started_of_filter hchecks)
  have hentry : m.after.documents.get? u = m.before.documents.get? u := by
    simp [Moment.get_after, hevent, Event.edits]
  have hheard : m.heard u =
      if currentPlace? u H = some ((startsOf u H).idxOf run) then
        (Errand.of m.before.checks run).verdict m.before.home outcome
      else [] := by
    -- The session goes by the number of the run; both the number and the place are current
    -- exactly when the start of the run is the last mark.
    have hcurrent := h.isCurrent_iff hrun
    rw [hurl] at hcurrent
    rw [Moment.heard, heffects, hurl]
    simp only [currentPlace_eq_some_iff, ← hcurrent]
    split
    · exact notices_verdict hurl hended outcome
    · rfl
  rw [Standing.of_concat_of_unmarked hmarks, hentry, h.errands_of_finish hrun hurl hchecks,
    hheard]
  unfold Standing.finish
  rw [Standing.errands_idxOf hmem]
  rfl

/-- A moment that does not concern a document is no turn of it, leaves its standing alone
and says nothing about it. -/
theorem Linked.standing_of_other (h : Linked H m.before) (hother : m.concerns u = false) :
    m.turns u (startsOf u H) = [] ∧
      Standing.of u (H ++ [m]) m.after = Standing.of u H m.before ∧ m.heard u = [] := by
  obtain ⟨hedits, hendings⟩ := Bool.or_eq_false_iff.1 hother
  have hendings : m.endings u = [] := by simpa using hendings
  have hentry : m.after.documents.get? u = m.before.documents.get? u := by
    rw [Moment.get_after, hedits]
    rfl
  refine ⟨by simp [Moment.turns, hedits, hendings], ?_, h.heard_of_other hother⟩
  rw [Standing.of_concat_of_same (Moment.marks_eq_nil_of_not_edits hedits)
    (h.checks_of_other hother), hentry]
  rfl

/-- A moment that edits a document takes its standing further as the edit alone tells. -/
theorem Linked.standing_of_edit (h : Linked H m.before) (hedits : m.event.edits u = true) :
    (Standing.of u (H ++ [m]) m.after, m.heard u) =
      (Standing.of u H m.before).take u (.edit m.event) := by
  have hentry : m.after.documents.get? u = m.event.rewrite (Standing.of u H m.before).stored? := by
    rw [Moment.get_after, if_pos hedits]
    rfl
  simp only [Standing.take, ← hentry]
  cases hevent : m.event with
  | opened v text language version =>
    obtain rfl : v = u := by simpa [hevent, Event.edits] using hedits
    exact h.standing_of_lint (m.before.documents.opened v text language version)
      (by rw [hevent]; rfl) (by simp [Moment.closings, hevent])
  | saved v text? =>
    obtain rfl : v = u := by simpa [hevent, Event.edits] using hedits
    exact h.standing_of_lint (m.before.documents.saved v text?)
      (by rw [hevent]; rfl) (by simp [Moment.closings, hevent])
  | changed v texts version =>
    have hchecks : m.after.checks = m.before.checks := by simp [Moment.after, hevent, step]
    have hmarks : m.marks u = [] :=
      Moment.marks_eq_nil (by simp [Moment.closings, hevent]) (Moment.started_of_same hchecks)
    have hheard : m.heard u = [] := by simp [Moment.heard, Moment.effects, hevent, step]
    rw [Standing.of_concat_of_same hmarks fun run _ => by rw [hchecks], hheard]
  | closed v =>
    obtain rfl : v = u := by simpa [hevent, Event.edits] using hedits
    rw [hevent] at hentry
    rw [Standing.of_concat_of_closing hevent, hentry]
    rfl
  | checked generation outcome => simp [hevent, Event.edits] at hedits
  | formatRequested request v range? => simp [hevent, Event.edits] at hedits
  | formatted request outcome => simp [hevent, Event.edits] at hedits
  | cancelled request => simp [hevent, Event.edits] at hedits

/-- A moment that concerns a document is one turn of it, which takes its standing further
and says what the standing and the turn alone tell. -/
theorem Linked.standing_of_turn (h : Linked H m.before) (hconcerns : m.concerns u = true) :
    ∃ turn, m.turns u (startsOf u H) = [turn] ∧
      (Standing.of u (H ++ [m]) m.after, m.heard u) = (Standing.of u H m.before).take u turn := by
  by_cases hedits : m.event.edits u = true
  · exact ⟨.edit m.event, by simp [Moment.turns, hedits], h.standing_of_edit hedits⟩
  · have hendings : m.endings u ≠ [] := by simpa [Moment.concerns, hedits] using hconcerns
    obtain ⟨run, outcome, hevent, hrun, hurl, hsingle, hchecks, heffects⟩ :=
      h.finish_of_endings hendings
    exact ⟨.ending ((startsOf u H).idxOf run) outcome, by simp [Moment.turns, hedits, hsingle],
      h.standing_of_finish hevent hrun hurl hchecks heffects⟩

/-- Where a document stands alike in two sessions, the other session can take every turn
of the document that the one takes. -/
theorem Linked.exists_turn {K : List Moment} {t : Session} (h : Linked H m.before)
    (k : Linked K t) (halike : Standing.of u K t = Standing.of u H m.before)
    (hconcerns : m.concerns u = true) :
    ∃ f, (⟨t, f⟩ : Moment).concerns u = true ∧
      (⟨t, f⟩ : Moment).turns u (startsOf u K) = m.turns u (startsOf u H) := by
  by_cases hedits : m.event.edits u = true
  · exact ⟨m.event, by simp [Moment.concerns, hedits], by simp [Moment.turns, hedits]⟩
  · have hendings : m.endings u ≠ [] := by simpa [Moment.concerns, hedits] using hconcerns
    obtain ⟨run, outcome, -, hrun, hurl, hsingle, -, -⟩ := h.finish_of_endings hendings
    have hmem : run ∈ startsOf u H := mem_startsOf.2 ⟨h.mem_starts hrun, hurl⟩
    -- The errand of the run stands at the same place in the other session.
    have herrand := Standing.errands_idxOf (s := m.before) hmem
    rw [← halike, Standing.of, List.getElem?_map] at herrand
    obtain ⟨other, hother, hsame⟩ := Option.map_eq_some_iff.1 herrand
    obtain ⟨hplace, hget⟩ := List.getElem?_eq_some_iff.1 hother
    have hunder : other ∈ t.checks := by
      have hunder := congrArg Errand.underWay hsame
      simpa [Errand.of, hrun] using hunder
    have hother_url : other.url = u := (mem_startsOf.1 (List.mem_of_getElem? hother)).2
    have hother_place : (startsOf u K).idxOf other = (startsOf u H).idxOf run := by
      rw [← hget]
      exact (k.nodup_starts.filter _).idxOf_getElem _ hplace
    have hended : (⟨t, .checked other.generation outcome⟩ : Moment).endings u =
        [(other, outcome)] := by
      rw [Moment.endings, Linked.ended_eq (m := ⟨t, _⟩) k rfl hunder]
      simp [hother_url]
    have hending : Event.edits u (.checked other.generation outcome) = false := rfl
    refine ⟨.checked other.generation outcome, by simp [Moment.concerns, hended], ?_⟩
    simp [Moment.turns, hedits, hsingle, hending, hended, hother_place]

end Standings

/-! ## Whole runs -/

/-- The turns of a document lead from a standing to the one that the document has in a
session, writing its log, and nothing is said about the document but at its turns. -/
structure Tracked (u : Url) (σ : Standing) (H : List Moment) (s : Session) : Prop where
  leads : σ.run u (turns u H) = (Standing.of u H s, log u H)
  heard_eq : heard u H = (log u H).flatMap (·.2)

/-- Every moment keeps a document tracked. -/
theorem Tracked.concat {u : Url} {σ : Standing} {H : List Moment} {m : Moment}
    (h : Tracked u σ H m.before) (hlinked : Linked H m.before) :
    Tracked u σ (H ++ [m]) m.after := by
  cases hconcerns : m.concerns u with
  | false =>
    obtain ⟨hturns, hstanding, hheard⟩ := hlinked.standing_of_other hconcerns
    refine ⟨?_, ?_⟩
    · rw [hlinked.turns_concat, hturns, List.append_nil, h.leads, hstanding,
        log_concat_of_other hconcerns]
    · rw [heard_concat, hheard, List.append_nil, h.heard_eq, log_concat_of_other hconcerns]
  | true =>
    obtain ⟨turn, hturns, hturn⟩ := hlinked.standing_of_turn hconcerns
    refine ⟨?_, ?_⟩
    · rw [hlinked.turns_concat, hturns, Standing.run_concat, h.leads, ← hturn,
        log_concat_of_turn hconcerns]
      rfl
    · rw [heard_concat, h.heard_eq, log_concat_of_turn hconcerns, List.flatMap_append]
      simp

/-- Every document is tracked in every run of events. -/
theorem tracked_history (settings : Settings) (root : Option Path) (version : Option Version)
    (home : Option Path) (u : Url) (es : List Event) :
    Tracked u (Standing.of u [] (justSetUp settings root version home))
      (history (justSetUp settings root version home) es)
      ((justSetUp settings root version home).run es).1 := by
  induction es using List.reverseRecOn with
  | nil => exact ⟨rfl, rfl⟩
  | append_singleton es e ih =>
    rw [history_append_singleton, run_append_singleton]
    exact ih.concat (linked_history settings root version home es)

/-- Every run can be cut down to the turns of one document. -/
theorem exists_alone (settings : Settings) (root : Option Path) (version : Option Version)
    (home : Option Path) (u : Url) (es : List Event) :
    let s := justSetUp settings root version home
    ∃ fs, (∀ m ∈ history s fs, m.concerns u = true) ∧
      turns u (history s fs) = turns u (history s es) := by
  intro s
  induction es using List.reverseRecOn with
  | nil => exact ⟨[], by simp [history], rfl⟩
  | append_singleton es e ih =>
    obtain ⟨fs, halone, hturns⟩ := ih
    have hlinked : Linked (history s es) (⟨(s.run es).1, e⟩ : Moment).before :=
      linked_history settings root version home es
    have klinked : Linked (history s fs) (s.run fs).1 :=
      linked_history settings root version home fs
    rw [history_append_singleton, hlinked.turns_concat]
    cases hconcerns : (⟨(s.run es).1, e⟩ : Moment).concerns u with
    | false =>
      rw [(hlinked.standing_of_other hconcerns).1, List.append_nil]
      exact ⟨fs, halone, hturns⟩
    | true =>
      -- The turns so far are the same, so the document stands alike in both runs.
      have halike : Standing.of u (history s fs) (s.run fs).1 =
          Standing.of u (history s es) (s.run es).1 := by
        have htracked := (tracked_history settings root version home u es).leads
        rw [← hturns, (tracked_history settings root version home u fs).leads] at htracked
        exact (Prod.mk.inj htracked).1
      obtain ⟨f, hf, hturn⟩ := hlinked.exists_turn klinked halike hconcerns
      refine ⟨fs ++ [f], ?_, ?_⟩
      · rw [history_append_singleton]
        intro m hm
        rcases List.mem_append.1 hm with hm | hm
        · exact halone m hm
        · rw [List.mem_singleton.1 hm]
          exact hf
      · rw [history_append_singleton, Linked.turns_concat (m := ⟨(s.run fs).1, f⟩) klinked,
          hturns, hturn]

/-- Documents do not disturb each other.  Whatever else happens in a run, what is done to a
document and the ends of its checker runs make up a run of their own; and in every run with
the same turns of the document the same is stored for it after each of them, and the same
is said about it: the checker runs that it asks for, the diagnostics with their versions,
and the messages that its linting failed. -/
theorem documents_isolated (settings : Settings) (root : Option Path)
    (version : Option Version) (home : Option Path) (es : List Event) (u : Url) :
    let s := justSetUp settings root version home
    let H := history s es
    (∃ fs, (∀ m ∈ history s fs, m.concerns u = true) ∧
        fs.filter (Event.edits u) = es.filter (Event.edits u) ∧
        turns u (history s fs) = turns u H) ∧
      ∀ fs, turns u (history s fs) = turns u H →
        log u (history s fs) = log u H ∧ heard u (history s fs) = heard u H := by
  intro s H
  obtain ⟨alone, hconcerns, hsame⟩ := exists_alone settings root version home u es
  have hedits : alone.filter (Event.edits u) = es.filter (Event.edits u) := by
    rw [← filterMap_edit_turns u s alone, hsame, filterMap_edit_turns]
  refine ⟨⟨alone, hconcerns, hedits, hsame⟩, fun fs hturns => ?_⟩
  have hH : Tracked u _ H _ := tracked_history settings root version home u es
  have hK : Tracked u _ (history s fs) _ := tracked_history settings root version home u fs
  have hlog : log u (history s fs) = log u H := by
    have hrun := hH.leads
    rw [← hturns, hK.leads] at hrun
    exact (Prod.mk.inj hrun).2
  exact ⟨hlog, by rw [hK.heard_eq, hH.heard_eq, hlog]⟩

/-- The URL of the file `/b.fish`. -/
def neighbourUrl : Url := ⟨"file", some ⟨[], [], []⟩, "/b.fish", none, none⟩

/-- What is done to `/a.fish` when its runs overtake each other, mixed with what is done
to another document and with a formatting request. -/
def crossing (outcome : Outcome) : List Event :=
  [.opened neighbourUrl "end" "fish" 1, .opened sampleUrl "end" "fish" 1,
    .formatRequested (.number 1) sampleUrl none, .saved neighbourUrl none,
    .saved sampleUrl none, .checked 4 outcome, .checked 1 (.ok ⟨0, [], []⟩),
    .closed neighbourUrl, .checked 2 (.ok ⟨0, [], []⟩)]

/-- The other document takes numbers away, and yet nothing changes for this one. -/
theorem documents_isolated_crossing :
    let s := justSetUp {} none none none
    let f := Failure.notFound "fish"
    let H := history s (crossing (.error f))
    let K := history s (overtaking (.error f))
    (∀ m ∈ K, m.concerns sampleUrl = true) ∧ turns sampleUrl K = turns sampleUrl H ∧
      log sampleUrl K = log sampleUrl H ∧ heard sampleUrl K = heard sampleUrl H ∧
      heard sampleUrl H =
        [.invocation (Lint.invocation {} none "/a.fish"),
          .invocation (Lint.invocation {} none "/a.fish"),
          .failure (lintingUnavailable f), .publication [] (some 1)] := by
  intro s f H K
  have hturns : turns sampleUrl K = turns sampleUrl H := by decide +kernel
  obtain ⟨-, hsame⟩ := documents_isolated {} none none none (crossing (.error f)) sampleUrl
  obtain ⟨hlog, hheard⟩ := hsame (overtaking (.error f)) hturns
  exact ⟨by decide +kernel, hturns, hlog, hheard, by decide +kernel⟩

end Session

end FishCheck
