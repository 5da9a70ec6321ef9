import FishCheck.Proofs.Session.Currency

/-!
# What is published when

The diagnostics of a document are published by its closings and by the ends of its
current runs, and by nothing else.  So no result of an outdated run is ever seen, and
once no run of a document is under way the editor shows what the last mark of the
document asks for, in whatever order the runs ended.

Main results:

- Theorem `lastPublication_of_idle`: the last published diagnostics of a document without
  runs under way are those of its last closing or of its last run.
- Theorem `publications_accounted`: every publication belongs to a closing or to a
  current run, runs publish in the order of their starts, and every current run that
  fails is reported once.
-/

namespace FishCheck

namespace Session

/-- The diagnostics that the end of a run stands for: those of the checker's output
against the text that the run took, none when the checker could not be run. -/
def CheckRun.findings (home : Option Path) (run : CheckRun) : Outcome → List Diagnostic
  | .ok completion => Lint.diagnostics home run.entry.text run.path completion.stderr
  | .error _ => []

/-! ## Publications of one moment -/

/-- The verdict on a run publishes its findings with the version that the run took. -/
theorem publications_verdict (s : Session) (run : CheckRun) (outcome : Outcome) (u : Url) :
    (s.verdict run outcome).filterMap (Effect.publication? u) =
      if run.url = u then [(run.findings s.home outcome, some run.entry.version)] else [] := by
  cases outcome with
  | ok completion =>
    by_cases h : run.url = u <;>
      simp [verdict, Lint.conclude, Except.map, CheckRun.findings, Effect.publication?, h]
  | error f =>
    have hmessage : (Effect.showError (lintingUnavailable f)).publication? u = none := rfl
    have hverdict : s.verdict run (.error f) =
        [.showError (lintingUnavailable f), .publish run.url [] (some run.entry.version)] := rfl
    rw [hverdict, List.filterMap_cons_none hmessage]
    by_cases h : run.url = u <;> simp [CheckRun.findings, Effect.publication?, h]

theorem Moment.published_eq_nil_of_aside {m : Moment} (h : ∀ e ∈ m.effects, e.IsAside)
    (u : Url) : m.published u = [] :=
  List.filterMap_eq_nil_iff.2 fun e he => (h e he).1 u

/-- The end of a run publishes exactly when the start of the run is the last mark of its
document. -/
theorem Linked.published_of_finish {H : List Moment} {m : Moment} (h : Linked H m.before)
    {run : CheckRun} {outcome : Outcome} (hrun : run ∈ m.before.checks)
    (heffects : m.effects =
      if m.before.generations.isCurrent run.url run.generation then
        m.before.verdict run outcome
      else []) (u : Url) :
    m.published u =
      if run.url = u ∧ lastMark u H = some (.start run) then
        [(run.findings m.before.home outcome, some run.entry.version)]
      else [] := by
  rw [Moment.published, heffects]
  by_cases hcurrent : m.before.generations.isCurrent run.url run.generation = true
  · have hmark := (h.isCurrent_iff hrun).1 hcurrent
    rw [if_pos hcurrent, publications_verdict]
    by_cases hu : run.url = u
    · subst hu
      simp [hmark]
    · simp [hu]
  · have hmark := mt (h.isCurrent_iff hrun).2 hcurrent
    rw [if_neg hcurrent, List.filterMap_nil, if_neg]
    rintro ⟨rfl, hlast⟩
    exact hmark hlast

/-- A moment publishes nothing for a document, or it closes the document, or it ends the
document's current run. -/
theorem Linked.published_cases {H : List Moment} {m : Moment} (h : Linked H m.before) (u : Url) :
    m.published u = [] ∨
      (m.event = .closed u ∧ m.published u = [([], none)]) ∨
      ∃ run outcome, m.ended = [(run, outcome)] ∧ run.url = u ∧
        lastMark u H = some (.start run) ∧
        m.published u = [(run.findings m.before.home outcome, some run.entry.version)] := by
  cases m.change with
  | quiet hclosings hended hchecks hgenerations heffects =>
    exact Or.inl (Moment.published_eq_nil_of_aside heffects u)
  | closing v hevent hchecks hgenerations heffects =>
    by_cases hv : v = u
    · subst hv
      exact Or.inr (Or.inl ⟨hevent, by simp [Moment.published, heffects, Effect.publication?]⟩)
    · exact Or.inl (by simp [Moment.published, heffects, Effect.publication?, hv])
  | start run hclosings hended hgeneration hpath hentry hchecks hgenerations heffects =>
    exact Or.inl (by simp [Moment.published, heffects, Effect.publication?])
  | number v hclosings hended hpath hchecks hgenerations heffects =>
    exact Or.inl (by simp [Moment.published, heffects])
  | finish run outcome hevent hrun hchecks hgenerations heffects =>
    have hpublished := h.published_of_finish hrun heffects u
    split at hpublished
    · rename_i hmark
      exact Or.inr (Or.inr ⟨run, outcome, h.ended_eq hevent hrun, hmark.1, hmark.2, hpublished⟩)
    · exact Or.inl hpublished

/-! ## The last publication -/

/-- What the last mark of a document asks for has been published, unless the run that it
starts is still under way. -/
def Answered (home : Option Path) (u : Url) (H : List Moment) (s : Session) : Prop :=
  match lastMark u H with
  | none => publications u H = []
  | some .closing => (publications u H).getLast? = some ([], none)
  | some (.start run) =>
    run ∈ s.checks ∨ ∃ outcome, (run, outcome) ∈ ends H ∧
      (publications u H).getLast? = some (run.findings home outcome, some run.entry.version)

/-- A moment that neither marks a document nor publishes for it keeps its last mark
answered, as long as the run of that mark stays under way. -/
theorem Answered.concat_of_silence {home : Option Path} {u : Url} {H : List Moment} {m : Moment}
    (h : Answered home u H m.before) (hmarks : m.marks u = []) (hpublished : m.published u = [])
    (hchecks : ∀ run, lastMark u H = some (.start run) →
      run ∈ m.before.checks → run ∈ m.after.checks) :
    Answered home u (H ++ [m]) m.after := by
  have hlast := lastMark_concat_of_nil H hmarks
  have hpublications : publications u (H ++ [m]) = publications u H := by
    rw [publications_concat, hpublished, List.append_nil]
  unfold Answered at h ⊢
  rw [hlast, hpublications, ends_concat]
  split at h
  · exact h
  · exact h
  · rename_i run hmark
    rcases h with hrun | ⟨outcome, hended, hpublication⟩
    · exact Or.inl (hchecks run hmark hrun)
    · exact Or.inr ⟨outcome, List.mem_append_left _ hended, hpublication⟩

/-- Every moment keeps the last marks answered. -/
theorem Answered.concat {home : Option Path} {u : Url} {H : List Moment} {m : Moment}
    (h : Answered home u H m.before) (hlinked : Linked H m.before) (hhome : m.before.home = home) :
    Answered home u (H ++ [m]) m.after := by
  cases m.change with
  | quiet hclosings hended hchecks hgenerations heffects =>
    have hstarted : m.started = [] := Moment.started_of_same hchecks
    exact h.concat_of_silence (Moment.marks_eq_nil (hclosings u) hstarted)
      (Moment.published_eq_nil_of_aside heffects u) (fun run _ hrun => hchecks ▸ hrun)
  | number v hclosings hended hpath hchecks hgenerations heffects =>
    have hstarted : m.started = [] := Moment.started_of_same hchecks
    exact h.concat_of_silence (Moment.marks_eq_nil (hclosings u) hstarted)
      (by simp [Moment.published, heffects]) (fun run _ hrun => hchecks ▸ hrun)
  | closing v hevent hchecks hgenerations heffects =>
    have hstarted : m.started = [] := Moment.started_of_same hchecks
    have hclosings := Moment.closings_of_event hevent u
    by_cases hv : v = u
    · have hmarks : m.marks u = [.closing] := by simp [Moment.marks, hstarted, hclosings, hv]
      simp [Answered, lastMark_concat_of_singleton H hmarks, publications_concat,
        Moment.published, heffects, Effect.publication?, hv]
    · exact h.concat_of_silence (by simp [Moment.marks, hstarted, hclosings, hv])
        (by simp [Moment.published, heffects, Effect.publication?, hv])
        (fun run _ hrun => hchecks ▸ hrun)
  | start run hclosings hended hgeneration hpath hentry hchecks hgenerations heffects =>
    have hstarted : m.started = [run] :=
      Moment.started_eq_singleton hchecks (hlinked.not_mem_checks_of_fresh hgeneration)
    by_cases hu : run.url = u
    · have hmarks : m.marks u = [.start run] := by
        simp [Moment.marks, hclosings, hstarted, hu]
      have hrun : run ∈ m.after.checks := by simp [hchecks]
      simp [Answered, lastMark_concat_of_singleton H hmarks, hrun]
    · refine h.concat_of_silence (by simp [Moment.marks, hclosings, hstarted, hu])
        (by simp [Moment.published, heffects, Effect.publication?]) fun r _ hr => ?_
      rw [hchecks]
      exact List.mem_append_left _ hr
  | finish run outcome hevent hrun hchecks hgenerations heffects =>
    have hstarted : m.started = [] := Moment.started_of_filter hchecks
    have hmarks : m.marks u = [] :=
      Moment.marks_eq_nil (by simp [Moment.closings, hevent]) hstarted
    have hpublished := hlinked.published_of_finish hrun heffects u
    by_cases hmark : run.url = u ∧ lastMark u H = some (.start run)
    · rw [if_pos hmark, hhome] at hpublished
      have hended : (run, outcome) ∈ ends (H ++ [m]) := by
        simp [ends_concat, hlinked.ended_eq hevent hrun]
      simp only [Answered, lastMark_concat_of_nil H hmarks, hmark.2]
      exact Or.inr ⟨outcome, hended, by simp [publications_concat, hpublished]⟩
    · rw [if_neg hmark] at hpublished
      -- Another run holds the last mark, so it is not the one that ends here.
      refine h.concat_of_silence hmarks hpublished fun r hr hunder => ?_
      have hr_url : r.url = u := by simpa using (List.mem_filter.1 (mem_startsOf_of_lastMark hr)).2
      have hne : r.generation ≠ run.generation := by
        intro hg
        have heq := hlinked.eq_of_generation (hlinked.mem_starts hunder)
          (hlinked.mem_starts hrun) hg
        subst heq
        exact hmark ⟨hr_url, hr⟩
      rw [hchecks]
      simp [hunder, hne]

/-- No event changes the directory that `~` stands for. -/
theorem home_run (s : Session) (es : List Event) : (s.run es).1.home = s.home := by
  induction es generalizing s with
  | nil => rfl
  | cons e es ih => rw [run, ih, home_step]

/-- The last marks are answered after every run of events. -/
theorem answered_history (settings : Settings) (root : Option Path) (version : Option Version)
    (home : Option Path) (u : Url) (es : List Event) :
    Answered home u (history (justSetUp settings root version home) es)
      ((justSetUp settings root version home).run es).1 := by
  induction es using List.reverseRecOn with
  | nil => exact rfl
  | append_singleton es e ih =>
    rw [history_append_singleton, run_append_singleton]
    exact ih.concat (linked_history settings root version home es) (home_run _ es)

/-- A run is started on the document that is stored at that moment, and for the checker
to be asked about the document's path. -/
theorem started_spec {settings : Settings} {root : Option Path} {version : Option Version}
    {home : Option Path} {es : List Event} {run : CheckRun}
    (h : run ∈ starts (history (justSetUp settings root version home) es)) :
    ∃ m ∈ history (justSetUp settings root version home) es, m.started = [run] ∧
      run.url.toPath? = some run.path ∧
      m.after.documents.get? run.url = some run.entry ∧
      m.effects =
        [.check run.generation (Lint.invocation m.before.settings m.before.root run.path)] := by
  obtain ⟨m, hm, hstarted⟩ := List.mem_flatMap.1 h
  refine ⟨m, hm, ?_⟩
  obtain ⟨K, L, hsplit⟩ := List.append_of_mem hm
  obtain ⟨fs, rfl, hbefore⟩ := history_split hsplit
  have hlinked := linked_history settings root version home fs
  rw [← hbefore] at hlinked
  have hsome : m.started ≠ [] := List.ne_nil_of_mem hstarted
  cases m.change with
  | quiet hclosings hended hchecks hgenerations heffects =>
    exact absurd (Moment.started_of_same hchecks) hsome
  | closing v hevent hchecks hgenerations heffects =>
    exact absurd (Moment.started_of_same hchecks) hsome
  | number v hclosings hended hpath hchecks hgenerations heffects =>
    exact absurd (Moment.started_of_same hchecks) hsome
  | finish other outcome hevent hrun hchecks hgenerations heffects =>
    exact absurd (Moment.started_of_filter hchecks) hsome
  | start other hclosings hended hgeneration hpath hentry hchecks hgenerations heffects =>
    have hsingle : m.started = [other] :=
      Moment.started_eq_singleton hchecks (hlinked.not_mem_checks_of_fresh hgeneration)
    rw [hsingle] at hstarted
    rw [List.mem_singleton.1 hstarted]
    exact ⟨hsingle, hpath, hentry, heffects⟩

/-- Nothing that was published is lost, and nothing is published that was overtaken: once
no run of a document is under way, its last published diagnostics are none at all after a
closing, and otherwise those of the run that was started last, with the version that this
run took. -/
theorem lastPublication_of_idle (settings : Settings) (root : Option Path)
    (version : Option Version) (home : Option Path) (es : List Event) (u : Url)
    (hidle : ∀ run ∈ ((justSetUp settings root version home).run es).1.checks, run.url ≠ u) :
    let H := history (justSetUp settings root version home) es
    match lastMark u H with
    | none => publications u H = []
    | some .closing => (publications u H).getLast? = some ([], none)
    | some (.start run) =>
      (∃ m ∈ H, m.started = [run] ∧ u.toPath? = some run.path ∧
        m.after.documents.get? u = some run.entry ∧
        m.effects =
          [.check run.generation (Lint.invocation m.before.settings m.before.root run.path)]) ∧
      ∃ outcome, (∀ other, (run, other) ∈ ends H ↔ other = outcome) ∧
        (publications u H).getLast? = some (run.findings home outcome, some run.entry.version) := by
  intro H
  have hanswered : Answered home u H _ := answered_history settings root version home u es
  have hlinked : Linked H _ := linked_history settings root version home es
  unfold Answered at hanswered
  cases hmark : lastMark u H with
  | none => simpa [hmark] using hanswered
  | some mark =>
    cases mark with
    | closing => simpa [hmark] using hanswered
    | start run =>
      simp only [hmark] at hanswered ⊢
      obtain ⟨hstarted, hu⟩ := List.mem_filter.1 (mem_startsOf_of_lastMark hmark)
      have hu : run.url = u := by simpa using hu
      subst hu
      refine ⟨started_spec hstarted, ?_⟩
      rcases hanswered with hunder | ⟨outcome, hended, hlast⟩
      · exact absurd rfl (hidle run hunder)
      · refine ⟨outcome, fun other => ⟨fun hother => ?_, fun hother => hother ▸ hended⟩, hlast⟩
        exact hlinked.outcome_unique hother hended

/-- The URL of the file `/a.fish`. -/
def sampleUrl : Url := ⟨"file", some ⟨[], [], []⟩, "/a.fish", none, none⟩

/-- A document is opened and saved, and the run of the saving ends before the other one. -/
def overtaking (outcome : Outcome) : List Event :=
  [.opened sampleUrl "end" "fish" 1, .saved sampleUrl none, .checked 2 outcome,
    .checked 1 (.ok ⟨0, [], []⟩)]

/-- The run that overtakes the other one. -/
def overtakingRun : CheckRun := ⟨2, sampleUrl, "/a.fish", ⟨"end", "fish", 1, true⟩⟩

/-- The run that was started last has the last word, although it ended first. -/
theorem lastPublication_of_overtaking :
    let s := justSetUp {} none none none
    let es := overtaking (.ok ⟨127, [], "/a.fish (line 1): bad"⟩)
    (∀ run ∈ (s.run es).1.checks, run.url ≠ sampleUrl) ∧
      lastMark sampleUrl (history s es) = some (.start overtakingRun) ∧
      ∃ outcome, (∀ other, (overtakingRun, other) ∈ ends (history s es) ↔ other = outcome) ∧
        (publications sampleUrl (history s es)).getLast? =
          some (overtakingRun.findings none outcome, some 1) := by
  intro s es
  have hidle : ∀ run ∈ (s.run es).1.checks, run.url ≠ sampleUrl := by decide +kernel
  have hmark : lastMark sampleUrl (history s es) = some (.start overtakingRun) := by
    decide +kernel
  have hlast := lastPublication_of_idle {} none none none es sampleUrl hidle
  simp only [show lastMark sampleUrl (history (justSetUp {} none none none) es) = _ from hmark]
    at hlast
  exact ⟨hidle, hmark, hlast.2⟩

/-! ## The account of all publications -/

/-- The runs of a document started in a history are those of its marks. -/
theorem startsOf_eq_filterMap_marks (u : Url) (H : List Moment) :
    startsOf u H = (H.flatMap (Moment.marks u)).filterMap Mark.run? := by
  induction H with
  | nil => rfl
  | cons m H ih =>
    have hm : (m.marks u).filterMap Mark.run? = m.started.filter fun run => run.url = u := by
      have hclosings : (m.closings u).filterMap Mark.run? = [] := by
        unfold Moment.closings
        split
        · split <;> rfl
        · rfl
      simp [Moment.marks, hclosings, Function.comp_def, Mark.run?]
    rw [List.flatMap_cons, List.filterMap_append, ← ih, hm]
    simp [startsOf, starts]

/-- The run of the last mark is the one started last. -/
theorem getLast_startsOf {u : Url} {H : List Moment} {run : CheckRun}
    (h : lastMark u H = some (.start run)) : ∃ earlier, startsOf u H = earlier ++ [run] := by
  obtain ⟨marks, hmarks⟩ := List.getLast?_eq_some_iff.1 h
  refine ⟨marks.filterMap Mark.run?, ?_⟩
  rw [startsOf_eq_filterMap_marks, hmarks, List.filterMap_append]
  rfl

/-- Only runs that have ended publish. -/
theorem publishers_subset_ends (u : Url) (H : List Moment) :
    publishers u H ⊆ (ends H).map (·.1) := by
  intro run hrun
  obtain ⟨m, hm, hpublisher⟩ := List.mem_flatMap.1 hrun
  unfold Moment.publishers at hpublisher
  split at hpublisher
  · cases hpublisher
  · obtain ⟨p, hp, rfl⟩ := List.mem_map.1 hpublisher
    exact List.mem_map.2 ⟨p, List.mem_flatMap.2 ⟨m, hm, hp⟩, rfl⟩

/-- The runs that end at a moment were under way. -/
theorem Moment.mem_checks_of_ended {m : Moment} {run : CheckRun} {outcome : Outcome}
    (h : (run, outcome) ∈ m.ended) : run ∈ m.before.checks := by
  unfold Moment.ended at h
  split at h
  · obtain ⟨r, hr, heq⟩ := List.mem_map.1 h
    cases heq
    exact List.mem_of_mem_filter hr
  · cases h

/-- Every moment keeps the runs of a document publishing in the order of their starts. -/
theorem Linked.publishers_concat_sublist {H : List Moment} {m : Moment} (h : Linked H m.before)
    {u : Url} (hsublist : (publishers u H).Sublist (startsOf u H)) :
    (publishers u (H ++ [m])).Sublist (startsOf u (H ++ [m])) := by
  rw [publishers_concat, startsOf_concat]
  rcases h.published_cases u with
    hnone | ⟨hclosed, -⟩ | ⟨run, outcome, hended, -, hmark, hpublished⟩
  · have hpublishers : m.publishers u = [] := by simp [Moment.publishers, hnone]
    rw [hpublishers, List.append_nil]
    exact hsublist.trans (List.sublist_append_left _ _)
  · have hpublishers : m.publishers u = [] := by simp [Moment.publishers, Moment.ended, hclosed]
    rw [hpublishers, List.append_nil]
    exact hsublist.trans (List.sublist_append_left _ _)
  · have hpublishers : m.publishers u = [run] := by simp [Moment.publishers, hpublished, hended]
    have hmem : (run, outcome) ∈ m.ended := by
      rw [hended]
      exact List.mem_singleton.2 rfl
    have hunder : run ∈ m.before.checks := Moment.mem_checks_of_ended hmem
    have hfirst : run ∉ publishers u H := by
      intro hmem
      have hended := publishers_subset_ends u H hmem
      exact (List.nodup_append.1 h.nodup_account).2.2 _ hended _ hunder rfl
    obtain ⟨earlier, hearlier⟩ := getLast_startsOf hmark
    rw [hearlier] at hsublist
    obtain ⟨front, back, hsplit, hfront, hback⟩ := List.sublist_append_iff.1 hsublist
    -- The run itself has not published before, so all publishers started before it.
    have hnil : back = [] := by
      refine List.eq_nil_iff_forall_not_mem.2 fun r hr => hfirst ?_
      have hrun : r = run := List.mem_singleton.1 (hback.subset hr)
      rw [← hrun, hsplit]
      exact List.mem_append_right _ hr
    rw [hpublishers, hearlier, hsplit, hnil, List.append_nil]
    exact (hfront.append_right [run]).trans (List.sublist_append_left _ _)

/-- The runs of a document publish in the order of their starts. -/
theorem publishers_sublist (settings : Settings) (root : Option Path) (version : Option Version)
    (home : Option Path) (u : Url) (es : List Event) :
    (publishers u (history (justSetUp settings root version home) es)).Sublist
      (startsOf u (history (justSetUp settings root version home) es)) := by
  induction es using List.reverseRecOn with
  | nil => exact List.Sublist.refl _
  | append_singleton es e ih =>
    rw [history_append_singleton]
    exact (linked_history settings root version home es).publishers_concat_sublist ih

/-- The end of a run whose checker could not be run says so if the run is current, and
nothing otherwise. -/
theorem Linked.effects_of_failure {H : List Moment} {m : Moment} (h : Linked H m.before)
    {run : CheckRun} {f : Failure} (hended : (run, .error f) ∈ m.ended) :
    m.effects =
      if lastMark run.url H = some (.start run) then
        [.showError (lintingUnavailable f), .publish run.url [] (some run.entry.version)]
      else [] := by
  have hnot : m.ended ≠ [] := List.ne_nil_of_mem hended
  cases m.change with
  | quiet hclosings hnone hchecks hgenerations heffects => exact absurd hnone hnot
  | closing v hevent hchecks hgenerations heffects =>
    exact absurd (by simp [Moment.ended, hevent]) hnot
  | start other hclosings hnone hgeneration hpath hentry hchecks hgenerations heffects =>
    exact absurd hnone hnot
  | number v hclosings hnone hpath hchecks hgenerations heffects => exact absurd hnone hnot
  | finish other outcome hevent hrun hchecks hgenerations heffects =>
    rw [h.ended_eq hevent hrun] at hended
    obtain ⟨rfl, rfl⟩ := Prod.mk.inj (List.mem_singleton.1 hended)
    rw [heffects]
    by_cases hcurrent : m.before.generations.isCurrent run.url run.generation = true
    · rw [if_pos hcurrent, if_pos ((h.isCurrent_iff hrun).1 hcurrent)]
      rfl
    · rw [if_neg hcurrent, if_neg (mt (h.isCurrent_iff hrun).2 hcurrent)]

/-- Only the end of a current run says that the checker could not be run. -/
theorem Linked.failure_of_showError {H : List Moment} {m : Moment} (h : Linked H m.before)
    {f : Failure} (hshown : .showError (lintingUnavailable f) ∈ m.effects) :
    ∃ run g, (run, .error g) ∈ m.ended ∧ lastMark run.url H = some (.start run) ∧
      lintingUnavailable g = lintingUnavailable f := by
  cases m.change with
  | quiet hclosings hended hchecks hgenerations heffects =>
    exact absurd rfl ((heffects _ hshown).2 f)
  | closing v hevent hchecks hgenerations heffects => simp [heffects] at hshown
  | start run hclosings hended hgeneration hpath hentry hchecks hgenerations heffects =>
    simp [heffects] at hshown
  | number v hclosings hended hpath hchecks hgenerations heffects => simp [heffects] at hshown
  | finish run outcome hevent hrun hchecks hgenerations heffects =>
    rw [heffects] at hshown
    by_cases hcurrent : m.before.generations.isCurrent run.url run.generation = true
    · rw [if_pos hcurrent] at hshown
      cases outcome with
      | ok completion => simp [verdict, Lint.conclude, Except.map] at hshown
      | error g =>
        refine ⟨run, g, ?_, (h.isCurrent_iff hrun).1 hcurrent, ?_⟩
        · rw [h.ended_eq hevent hrun]
          exact List.mem_singleton.2 rfl
        · rcases List.mem_cons.1 hshown with hmessage | hpublish
          · exact (Effect.showError.inj hmessage).symm
          · cases List.mem_singleton.1 hpublish
    · rw [if_neg hcurrent] at hshown
      cases hshown

/-- Every publication and every message about the checker is accounted for: a document's
diagnostics come from its closings and from the ends of its current runs, its runs publish
at most once and in the order of their starts, and the end of a run whose checker could
not be run is reported if and only if the run is current, right before its diagnostics
are cleared. -/
theorem publications_accounted (settings : Settings) (root : Option Path)
    (version : Option Version) (home : Option Path) (es : List Event) :
    let H := history (justSetUp settings root version home) es
    (∀ K m L, H = K ++ m :: L → ∀ u,
      m.published u = [] ∨
      (m.event = .closed u ∧ m.published u = [([], none)]) ∨
      ∃ run outcome, m.ended = [(run, outcome)] ∧ run.url = u ∧
        lastMark u K = some (.start run) ∧
        m.published u = [(run.findings home outcome, some run.entry.version)]) ∧
    (∀ u, (startsOf u H).Nodup ∧ (publishers u H).Sublist (startsOf u H)) ∧
    ((ends H).map (·.1)).Nodup ∧
    (∀ K m L, H = K ++ m :: L →
      (∀ run f, (run, .error f) ∈ m.ended →
        m.effects =
          if lastMark run.url K = some (.start run) then
            [.showError (lintingUnavailable f), .publish run.url [] (some run.entry.version)]
          else []) ∧
      ∀ f, .showError (lintingUnavailable f) ∈ m.effects →
        ∃ run g, (run, .error g) ∈ m.ended ∧ lastMark run.url K = some (.start run) ∧
          lintingUnavailable g = lintingUnavailable f) := by
  intro H
  have hlinked : Linked H _ := linked_history settings root version home es
  have hprefix : ∀ K m L, H = K ++ m :: L → Linked K m.before ∧ m.before.home = home := by
    intro K m L hsplit
    obtain ⟨fs, rfl, hbefore⟩ := history_split hsplit
    rw [hbefore]
    exact ⟨linked_history settings root version home fs, home_run _ fs⟩
  refine ⟨?_, ?_, ?_, ?_⟩
  · intro K m L hsplit u
    obtain ⟨hK, rfl⟩ := hprefix K m L hsplit
    exact hK.published_cases u
  · intro u
    exact ⟨hlinked.nodup_starts.filter _, publishers_sublist settings root version home u es⟩
  · exact (List.nodup_append.1 hlinked.nodup_account).1
  · intro K m L hsplit
    obtain ⟨hK, -⟩ := hprefix K m L hsplit
    exact ⟨fun run f hended => hK.effects_of_failure hended,
      fun f hshown => hK.failure_of_showError hshown⟩

/-- The current run fails and is reported, and the run that it overtook stays silent. -/
theorem publications_accounted_overtaking :
    let s := justSetUp {} none none none
    let f := Failure.notFound "fish"
    let K := history s [.opened sampleUrl "end" "fish" 1, .saved sampleUrl none]
    let m : Moment :=
      ⟨(s.run [.opened sampleUrl "end" "fish" 1, .saved sampleUrl none]).1, .checked 2 (.error f)⟩
    (∃ L, history s (overtaking (.error f)) = K ++ m :: L) ∧
      m.ended = [(overtakingRun, .error f)] ∧
      m.effects = [.showError (lintingUnavailable f), .publish sampleUrl [] (some 1)] ∧
      (publishers sampleUrl (history s (overtaking (.error f)))).Sublist
        (startsOf sampleUrl (history s (overtaking (.error f)))) := by
  intro s f K m
  have hsplit : history s (overtaking (.error f)) =
      K ++ m :: [⟨m.after, .checked 1 (.ok ⟨0, [], []⟩)⟩] := rfl
  have hended : m.ended = [(overtakingRun, .error f)] := by decide +kernel
  have hmark : lastMark sampleUrl K = some (.start overtakingRun) := by decide +kernel
  obtain ⟨-, hordered, -, hreported⟩ :=
    publications_accounted {} none none none (overtaking (.error f))
  have heffects := (hreported K m _ hsplit).1 overtakingRun f (by rw [hended]; simp)
  rw [if_pos (show lastMark overtakingRun.url K = _ from hmark)] at heffects
  exact ⟨⟨_, hsplit⟩, hended, heffects, (hordered sampleUrl).2⟩

end Session

end FishCheck
