import FishCheck.Proofs.Session.History
import Mathlib.Data.List.Nodup
import Mathlib.Data.List.Perm.Basic

/-!
# Which run is current

The session decides by numbers which of its checker runs may still publish: a run is
current when its number is the newest one of its document.  This module ties the
numbers to the history.  The invariant `Linked` says that every run started is either
ended or under way, that numbers grow with every start, and that the newest number of
a document is the number of its last mark.  It follows that a run is current exactly
when its start is the last mark of its document.

Main results:

- Theorem `linked_history`: the invariant holds after every run of events.
- Theorem `Linked.isCurrent_iff`: being current by number is being the last start that
  no closing followed.
- Theorem `Linked.ended_eq`: the end of a run ends that run and no other.
-/

namespace FishCheck

namespace Session

/-! ## Histories that grow by a moment -/

section Snoc

variable (u : Url) (H : List Moment) (m : Moment)

theorem starts_concat : starts (H ++ [m]) = starts H ++ m.started := by
  simp [starts]

theorem startsOf_concat :
    startsOf u (H ++ [m]) = startsOf u H ++ m.started.filter fun run => run.url = u := by
  simp [startsOf, starts_concat]

theorem ends_concat : ends (H ++ [m]) = ends H ++ m.ended := by
  simp [ends]

theorem publications_concat :
    publications u (H ++ [m]) = publications u H ++ m.published u := by
  simp [publications]

theorem publishers_concat : publishers u (H ++ [m]) = publishers u H ++ m.publishers u := by
  simp [publishers]

/-- A moment without marks leaves the last mark as it is. -/
theorem lastMark_concat_of_nil {u : Url} {m : Moment} (hmarks : m.marks u = []) :
    lastMark u (H ++ [m]) = lastMark u H := by
  simp [lastMark, hmarks]

/-- A moment with one mark leaves it as the last one. -/
theorem lastMark_concat_of_singleton {u : Url} {m : Moment} {mark : Mark}
    (hmarks : m.marks u = [mark]) : lastMark u (H ++ [m]) = some mark := by
  simp [lastMark, hmarks]

end Snoc

/-- The run whose start was the last mark of a document was started for it. -/
theorem mem_startsOf_of_lastMark {u : Url} {H : List Moment} {run : CheckRun}
    (h : lastMark u H = some (.start run)) : run ∈ startsOf u H := by
  have hmem : Mark.start run ∈ H.flatMap (Moment.marks u) := List.mem_of_getLast? h
  obtain ⟨m, hm, hmark⟩ := List.mem_flatMap.1 hmem
  have hstarted : run ∈ m.started ∧ run.url = u := by
    rcases List.mem_append.1 hmark with hclosing | hstart
    · unfold Moment.closings at hclosing
      split at hclosing
      · split at hclosing <;> simp at hclosing
      · simp at hclosing
    · simpa using hstart
  simp only [startsOf, starts, List.mem_filter, List.mem_flatMap, decide_eq_true_eq]
  exact ⟨⟨m, hm, hstarted.1⟩, hstarted.2⟩

/-! ## The runs that one moment starts -/

/-- A moment that adds no run under way starts none. -/
theorem Moment.started_eq_nil {m : Moment} (h : m.after.checks ⊆ m.before.checks) :
    m.started = [] := by
  refine List.filter_eq_nil_iff.2 fun run hrun => ?_
  simpa using h hrun

/-- A moment that leaves the runs under way as they are starts none. -/
theorem Moment.started_of_same {m : Moment} (hchecks : m.after.checks = m.before.checks) :
    m.started = [] :=
  Moment.started_eq_nil (by rw [hchecks]; exact fun _ => id)

/-- A moment that only takes away runs under way starts none. -/
theorem Moment.started_of_filter {m : Moment} {p : CheckRun → Bool}
    (hchecks : m.after.checks = m.before.checks.filter p) : m.started = [] := by
  refine Moment.started_eq_nil fun r hr => ?_
  rw [hchecks] at hr
  exact List.mem_of_mem_filter hr

/-- A moment that adds a new run at the end starts that run. -/
theorem Moment.started_eq_singleton {m : Moment} {run : CheckRun}
    (hchecks : m.after.checks = m.before.checks ++ [run]) (hnew : run ∉ m.before.checks) :
    m.started = [run] := by
  rw [Moment.started, hchecks, List.filter_append]
  simp [hnew]

theorem Moment.closings_of_event {m : Moment} {v : Url} (hevent : m.event = .closed v)
    (u : Url) : m.closings u = if v = u then [.closing] else [] := by
  simp [Moment.closings, hevent]

/-- A moment that neither closes nor starts anything leaves no marks. -/
theorem Moment.marks_eq_nil {m : Moment} {u : Url} (hclosings : m.closings u = [])
    (hstarted : m.started = []) : m.marks u = [] := by
  simp [Moment.marks, hclosings, hstarted]

/-! ## The invariant -/

/-- The run that a mark starts. -/
def Mark.run? : Mark → Option CheckRun
  | .closing => none
  | .start run => some run

/-- The number of the run that a mark starts. -/
def Mark.number? (mark : Mark) : Option Nat := mark.run?.map (·.generation)

/-- How the numbers and the runs under way of a session hang together with its history. -/
structure Linked (H : List Moment) (s : Session) : Prop where
  /-- Every run started is ended or under way. -/
  account : (starts H).Perm ((ends H).map (·.1) ++ s.checks)
  /-- Later runs have larger numbers. -/
  numbered : (starts H).Pairwise fun a b => a.generation < b.generation
  /-- No run has a number that was not handed out. -/
  issued : ∀ run ∈ starts H, run.generation ≤ s.generations.issued
  /-- Runs are about documents with a local path. -/
  located : ∀ run ∈ starts H, run.url.toPath? = some run.path
  /-- The newest number of such a document is the one of its last mark. -/
  newest : ∀ u path, u.toPath? = some path →
    s.generations.latest.get? u = (lastMark u H).bind Mark.number?

namespace Linked

variable {H : List Moment} {s : Session} {m : Moment}

/-- A run under way was started. -/
theorem mem_starts (h : Linked H s) {run : CheckRun} (hrun : run ∈ s.checks) :
    run ∈ starts H :=
  h.account.mem_iff.2 (List.mem_append_right _ hrun)

/-- No two runs have the same number. -/
theorem nodup_generations (h : Linked H s) : ((starts H).map (·.generation)).Nodup :=
  List.pairwise_map.2 (h.numbered.imp fun hlt => Nat.ne_of_lt hlt)

theorem nodup_starts (h : Linked H s) : (starts H).Nodup :=
  h.nodup_generations.of_map

/-- Two runs with the same number are one. -/
theorem eq_of_generation (h : Linked H s) {a b : CheckRun} (ha : a ∈ starts H)
    (hb : b ∈ starts H) (hab : a.generation = b.generation) : a = b :=
  List.inj_on_of_nodup_map h.nodup_generations ha hb hab

/-- No run ends twice, and a run that has ended is not under way. -/
theorem nodup_account (h : Linked H s) : ((ends H).map (·.1) ++ s.checks).Nodup :=
  h.account.nodup_iff.1 h.nodup_starts

/-- A run has one outcome. -/
theorem outcome_unique (h : Linked H s) {run : CheckRun} {a b : Outcome}
    (ha : (run, a) ∈ ends H) (hb : (run, b) ∈ ends H) : a = b := by
  have hnodup : ((ends H).map (·.1)).Nodup := (List.nodup_append.1 h.nodup_account).1
  have heq := List.inj_on_of_nodup_map hnodup ha hb rfl
  exact congrArg Prod.snd heq

/-- A run under way has the newest number of its document exactly when its start is the
document's last mark. -/
theorem isCurrent_iff (h : Linked H s) {run : CheckRun} (hrun : run ∈ s.checks) :
    s.generations.isCurrent run.url run.generation = true ↔
      lastMark run.url H = some (.start run) := by
  have hnewest := h.newest run.url run.path (h.located run (h.mem_starts hrun))
  rw [Generations.isCurrent, hnewest, beq_iff_eq]
  constructor
  · intro hnumber
    obtain ⟨mark, hmark, hgeneration⟩ := Option.bind_eq_some_iff.1 hnumber
    cases mark with
    | closing => simp [Mark.number?, Mark.run?] at hgeneration
    | start other =>
      have hother : other ∈ starts H := (List.mem_filter.1 (mem_startsOf_of_lastMark hmark)).1
      have heq : other = run :=
        h.eq_of_generation hother (h.mem_starts hrun) (Option.some.inj hgeneration)
      rw [hmark, heq]
  · intro hmark
    simp [hmark, Mark.number?, Mark.run?]

/-- The end of a run ends that run and no other. -/
theorem ended_eq (h : Linked H m.before) {run : CheckRun} {outcome : Outcome}
    (hevent : m.event = .checked run.generation outcome) (hrun : run ∈ m.before.checks) :
    m.ended = [(run, outcome)] := by
  have hnodup : m.before.checks.Nodup := (List.nodup_append.1 h.nodup_account).2.1
  have hsame : ∀ r ∈ m.before.checks,
      decide (r.generation = run.generation) = decide (r = run) := by
    intro r hr
    have hiff : r.generation = run.generation ↔ r = run :=
      ⟨fun hg => h.eq_of_generation (h.mem_starts hr) (h.mem_starts hrun) hg, fun hg => hg ▸ rfl⟩
    simp only [hiff]
  have hfilter : m.before.checks.filter (fun r => r.generation = run.generation) = [run] := by
    rw [List.filter_congr hsame, List.filter_eq, hnodup.count, if_pos hrun]
    rfl
  simp [Moment.ended, hevent, hfilter]

/-- A run with a fresh number was not started yet. -/
theorem not_mem_starts_of_fresh (h : Linked H s) {run : CheckRun}
    (hgeneration : run.generation = s.generations.next) : run ∉ starts H := by
  intro hrun
  have hissued := h.issued run hrun
  have hfresh := s.generations.begin_fresh
  omega

/-- So it is not under way either. -/
theorem not_mem_checks_of_fresh (h : Linked H s) {run : CheckRun}
    (hgeneration : run.generation = s.generations.next) : run ∉ s.checks :=
  fun hrun => h.not_mem_starts_of_fresh hgeneration (h.mem_starts hrun)

/-! ## The invariant holds always -/

theorem nil (settings : Settings) (root : Option Path) (version : Option Version)
    (home : Option Path) : Linked [] (justSetUp settings root version home) where
  account := List.Perm.refl _
  numbered := List.Pairwise.nil
  issued := by simp [starts]
  located := by simp [starts]
  newest := by
    intro u path _
    rfl

/-- A moment without starts, closings and ends keeps the invariant as long as it hands
out no number for a document with a local path. -/
theorem concat_of_nothing (h : Linked H m.before) (hclosings : ∀ u, m.closings u = [])
    (hended : m.ended = []) (hchecks : m.after.checks = m.before.checks)
    (hissued : m.before.generations.issued ≤ m.after.generations.issued)
    (hlatest : ∀ u path, u.toPath? = some path →
      m.after.generations.latest.get? u = m.before.generations.latest.get? u) :
    Linked (H ++ [m]) m.after := by
  have hstarted : m.started = [] := Moment.started_of_same hchecks
  have hstarts : starts (H ++ [m]) = starts H := by simp [starts_concat, hstarted]
  have hends : ends (H ++ [m]) = ends H := by simp [ends_concat, hended]
  refine ⟨?_, ?_, ?_, ?_, ?_⟩
  · rw [hstarts, hends, hchecks]
    exact h.account
  · rw [hstarts]
    exact h.numbered
  · rw [hstarts]
    exact fun run hrun => Nat.le_trans (h.issued run hrun) hissued
  · rw [hstarts]
    exact h.located
  · intro u path hpath
    rw [lastMark_concat_of_nil H (Moment.marks_eq_nil (hclosings u) hstarted),
      hlatest u path hpath]
    exact h.newest u path hpath

/-- The closing of a document is its last mark, and its number is forgotten. -/
theorem concat_of_closing (h : Linked H m.before) {v : Url} (hevent : m.event = .closed v)
    (hchecks : m.after.checks = m.before.checks)
    (hgenerations : m.after.generations = m.before.generations.retire v) :
    Linked (H ++ [m]) m.after := by
  have hstarted : m.started = [] := Moment.started_of_same hchecks
  have hended : m.ended = [] := by simp [Moment.ended, hevent]
  have hstarts : starts (H ++ [m]) = starts H := by simp [starts_concat, hstarted]
  have hends : ends (H ++ [m]) = ends H := by simp [ends_concat, hended]
  refine ⟨?_, ?_, ?_, ?_, ?_⟩
  · rw [hstarts, hends, hchecks]
    exact h.account
  · rw [hstarts]
    exact h.numbered
  · rw [hstarts, hgenerations]
    exact h.issued
  · rw [hstarts]
    exact h.located
  · intro u path hpath
    rw [hgenerations, Generations.retire, Table.get_erase]
    by_cases huv : u = v
    · have hmarks : m.marks u = [.closing] := by
        simp [Moment.marks, hstarted, Moment.closings_of_event hevent, huv]
      rw [if_pos huv, lastMark_concat_of_singleton H hmarks]
      rfl
    · have hmarks : m.marks u = [] := by
        simp [Moment.marks, hstarted, Moment.closings_of_event hevent, Ne.symm huv]
      rw [if_neg huv, lastMark_concat_of_nil H hmarks]
      exact h.newest u path hpath

/-- The start of a run is the last mark of its document, and its number the newest. -/
theorem concat_of_start (h : Linked H m.before) {run : CheckRun}
    (hclosings : ∀ u, m.closings u = []) (hended : m.ended = [])
    (hgeneration : run.generation = m.before.generations.next)
    (hpath : run.url.toPath? = some run.path)
    (hchecks : m.after.checks = m.before.checks ++ [run])
    (hgenerations : m.after.generations = m.before.generations.start run.url) :
    Linked (H ++ [m]) m.after := by
  have hstarted : m.started = [run] :=
    Moment.started_eq_singleton hchecks (h.not_mem_checks_of_fresh hgeneration)
  have hstarts : starts (H ++ [m]) = starts H ++ [run] := by simp [starts_concat, hstarted]
  have hends : ends (H ++ [m]) = ends H := by simp [ends_concat, hended]
  have hfresh : ∀ old ∈ starts H, old.generation < run.generation := by
    intro old hold
    have hissued := h.issued old hold
    have hnext := m.before.generations.begin_fresh
    omega
  refine ⟨?_, ?_, ?_, ?_, ?_⟩
  · rw [hstarts, hends, hchecks, ← List.append_assoc]
    exact h.account.append_right [run]
  · rw [hstarts]
    refine List.pairwise_append.2 ⟨h.numbered, List.pairwise_singleton _ _, ?_⟩
    intro old hold new hnew
    rw [List.mem_singleton.1 hnew]
    exact hfresh old hold
  · rw [hstarts, hgenerations]
    intro r hr
    change r.generation ≤ m.before.generations.next
    rcases List.mem_append.1 hr with hold | hnew
    · have hlt := hfresh r hold
      omega
    · rw [List.mem_singleton.1 hnew]
      omega
  · rw [hstarts]
    intro r hr
    rcases List.mem_append.1 hr with hold | hnew
    · exact h.located r hold
    · rw [List.mem_singleton.1 hnew]
      exact hpath
  · intro u path hu
    rw [hgenerations, Generations.start, Table.get_set]
    by_cases huv : u = run.url
    · have hmarks : m.marks u = [.start run] := by
        simp [Moment.marks, hclosings, hstarted, huv]
      rw [if_pos huv, lastMark_concat_of_singleton H hmarks]
      simp [Mark.number?, Mark.run?, hgeneration]
    · have hmarks : m.marks u = [] := by
        simp [Moment.marks, hclosings, hstarted, Ne.symm huv]
      rw [if_neg huv, lastMark_concat_of_nil H hmarks]
      exact h.newest u path hu

/-- The end of a run takes it from those under way to those ended. -/
theorem concat_of_finish (h : Linked H m.before) {run : CheckRun} {outcome : Outcome}
    (hevent : m.event = .checked run.generation outcome)
    (hchecks : m.after.checks = m.before.checks.filter fun r => r.generation ≠ run.generation)
    (hgenerations : m.after.generations = m.before.generations) :
    Linked (H ++ [m]) m.after := by
  have hstarted : m.started = [] := Moment.started_of_filter hchecks
  have hstarts : starts (H ++ [m]) = starts H := by simp [starts_concat, hstarted]
  have hends : (ends (H ++ [m])).map (·.1) = (ends H).map (·.1) ++
      m.before.checks.filter fun r => r.generation = run.generation := by
    simp [ends_concat, Moment.ended, hevent, Function.comp_def]
  refine ⟨?_, ?_, ?_, ?_, ?_⟩
  · rw [hstarts, hends, hchecks, List.append_assoc]
    refine h.account.trans (List.Perm.append_left _ ?_)
    have hsplit := List.filter_append_perm
      (fun r : CheckRun => decide (r.generation = run.generation)) m.before.checks
    simpa using hsplit.symm
  · rw [hstarts]
    exact h.numbered
  · rw [hstarts, hgenerations]
    exact h.issued
  · rw [hstarts]
    exact h.located
  · intro u path hpath
    have hmarks : m.marks u = [] :=
      Moment.marks_eq_nil (by simp [Moment.closings, hevent]) hstarted
    rw [hgenerations, lastMark_concat_of_nil H hmarks]
    exact h.newest u path hpath

/-- Every moment keeps the invariant. -/
theorem concat (h : Linked H m.before) : Linked (H ++ [m]) m.after := by
  cases m.change with
  | quiet hclosings hended hchecks hgenerations heffects =>
    exact h.concat_of_nothing hclosings hended hchecks
      (Nat.le_of_eq (by rw [hgenerations]))
      (by simp [hgenerations])
  | closing v hevent hchecks hgenerations heffects =>
    exact h.concat_of_closing hevent hchecks hgenerations
  | start run hclosings hended hgeneration hpath hentry hchecks hgenerations heffects =>
    exact h.concat_of_start hclosings hended hgeneration hpath hchecks hgenerations
  | number v hclosings hended hpath hchecks hgenerations heffects =>
    refine h.concat_of_nothing hclosings hended hchecks ?_ ?_
    · rw [hgenerations]
      exact Nat.le_of_lt m.before.generations.begin_fresh
    · intro u path hu
      have huv : u ≠ v := by
        rintro rfl
        rw [hpath] at hu
        cases hu
      rw [hgenerations, Generations.start, Table.get_set, if_neg huv]
  | finish run outcome hevent hrun hchecks hgenerations heffects =>
    exact h.concat_of_finish hevent hchecks hgenerations

end Linked

/-- The session after a run and one more event. -/
theorem run_append_singleton (s : Session) (es : List Event) (e : Event) :
    (s.run (es ++ [e])).1 = ((s.run es).1.step e).1 := by
  rw [run_append]
  rfl

/-- Numbers and runs under way fit the history after every run of events. -/
theorem linked_history (settings : Settings) (root : Option Path) (version : Option Version)
    (home : Option Path) (es : List Event) :
    Linked (history (justSetUp settings root version home) es)
      ((justSetUp settings root version home).run es).1 := by
  induction es using List.reverseRecOn with
  | nil => exact Linked.nil settings root version home
  | append_singleton es e ih =>
    rw [history_append_singleton, run_append_singleton]
    exact ih.concat

end Session

end FishCheck
