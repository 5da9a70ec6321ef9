import FishCheck.Proofs.Session.Publishing

/-!
# The turns of a document

A document takes part in a run by its turns: what the editor does to it, and the ends of
its own checker runs.  A turn names such a run by its place among the runs of the document
and not by its number, since numbers are shared by all documents.  This module says what a
turn is, what a session says about a document, and how little the other moments have to do
with it.

Main results:

- Theorem `filterMap_edit_turns`: the turns of a document hold all events that edit it.
- Theorem `Linked.turns_concat`: the turns of a history grow by those of its last moment.
- Theorem `Moment.get_after`: only the moments that edit a document change what is stored
  for it.
- Theorem `Linked.heard_of_other`: a moment that does not concern a document says nothing
  about it.
- Theorem `Linked.checks_of_other`: it leaves the same runs of the document under way.
-/

namespace FishCheck

namespace Session

/-! ## What concerns a document -/

/-- Whether the editor opens, changes, saves or closes a document. -/
def Event.edits (u : Url) : Event → Bool
  | .opened v .. | .changed v .. | .saved v _ | .closed v => v = u
  | _ => false

/-- The runs of a document that a moment ends, each with its outcome. -/
def Moment.endings (u : Url) (m : Moment) : List (CheckRun × Outcome) :=
  m.ended.filter fun e => e.1.url = u

/-- Whether a moment belongs to a document: the editor does something to it, or one of
its checker runs ends. -/
def Moment.concerns (u : Url) (m : Moment) : Bool := m.event.edits u || !(m.endings u).isEmpty

deriving instance DecidableEq for Event

/-- A turn of a document. -/
inductive Turn
  /-- The editor does something to the document. -/
  | edit (event : Event)
  /-- A checker run ends, given by its place among all runs of the document. -/
  | ending (place : Nat) (outcome : Outcome)
deriving DecidableEq, Repr

/-- The event of a turn that is an edit. -/
def Turn.edit? : Turn → Option Event
  | .edit event => some event
  | .ending .. => none

/-- The turns of a document at a moment, given the runs of the document. -/
def Moment.turns (u : Url) (runs : List CheckRun) (m : Moment) : List Turn :=
  if m.event.edits u then [.edit m.event]
  else (m.endings u).map fun e => .ending (runs.idxOf e.1) e.2

/-- The turns of a document in a history. -/
def turns (u : Url) (H : List Moment) : List Turn := H.flatMap (Moment.turns u (startsOf u H))

/-- What a session says about a document. -/
inductive Notice
  /-- The checker is to run. -/
  | invocation (invocation : Invocation)
  | publication (diagnostics : List Diagnostic) (version? : Option Int)
  /-- The checker could not be run. -/
  | failure (message : Text)
deriving DecidableEq, Repr

/-- What an effect says about a document at a moment.  A run of the checker is about the
document for which it was started, and a message about the one whose run ended. -/
def Moment.notice? (u : Url) (m : Moment) : Effect → Option Notice
  | .check generation invocation =>
    if m.started.any fun run => run.generation = generation ∧ run.url = u then
      some (.invocation invocation)
    else none
  | .publish v diagnostics version? =>
    if v = u then some (.publication diagnostics version?) else none
  | .showError message => if (m.endings u).isEmpty then none else some (.failure message)
  | _ => none

/-- What a moment says about a document, in order. -/
def Moment.heard (u : Url) (m : Moment) : List Notice := m.effects.filterMap (m.notice? u)

/-- What is said about a document, in order. -/
def heard (u : Url) (H : List Moment) : List Notice := H.flatMap (Moment.heard u)

/-- The log of a document: for each moment that concerns it, what is stored for it after
that moment and what the moment says about it. -/
def log (u : Url) (H : List Moment) : List (Option Entry × List Notice) :=
  (H.filter (Moment.concerns u)).map fun m => (m.after.documents.get? u, m.heard u)

/-- What an event makes of the stored document that it edits. -/
def Event.rewrite : Event → Option Entry → Option Entry
  | .opened _ text language version, _ => some ⟨text, language, version, true⟩
  | .changed _ texts version, stored? =>
    match texts.getLast? with
    | none => stored?
    | some t => stored?.map fun e => { e with text := t, version := version, saved := false }
  | .saved _ text?, stored? =>
    stored?.map fun e => { e with text := text?.getD e.text, saved := true }
  | .closed _, _ => none
  | _, stored? => stored?

/-! ## Edits -/

/-- The edits among the turns of a moment. -/
theorem Moment.filterMap_edit_turns (u : Url) (runs : List CheckRun) (m : Moment) :
    (m.turns u runs).filterMap Turn.edit? = [m.event].filter (Event.edits u) := by
  unfold Moment.turns
  split
  · rename_i hedits
    simp [Turn.edit?, hedits]
  · rename_i hedits
    simp [Turn.edit?, hedits, Function.comp_def]

/-- The edits among the turns of some moments, whatever runs their places refer to. -/
theorem filterMap_edit_flatMap_turns (u : Url) (runs : List CheckRun) (H : List Moment) :
    (H.flatMap (Moment.turns u runs)).filterMap Turn.edit? =
      (H.map Moment.event).filter (Event.edits u) := by
  induction H with
  | nil => rfl
  | cons m H ih =>
    rw [List.flatMap_cons, List.filterMap_append, m.filterMap_edit_turns, ih, List.map_cons,
      ← List.filter_append, List.singleton_append]

theorem map_event_history (s : Session) (es : List Event) :
    (history s es).map Moment.event = es := by
  induction es generalizing s with
  | nil => rfl
  | cons e es ih => simp [history, ih]

/-- The edits among the turns of a document are the events that edit it. -/
theorem filterMap_edit_turns (u : Url) (s : Session) (es : List Event) :
    (turns u (history s es)).filterMap Turn.edit? = es.filter (Event.edits u) := by
  rw [turns, filterMap_edit_flatMap_turns, map_event_history]

/-! ## Histories that grow by a moment -/

/-- The runs of a document that end at a moment were under way and are its own. -/
theorem Moment.mem_of_endings {u : Url} {m : Moment} {e : CheckRun × Outcome}
    (he : e ∈ m.endings u) : e.1 ∈ m.before.checks ∧ e.1.url = u := by
  obtain ⟨hended, hu⟩ := List.mem_filter.1 he
  exact ⟨Moment.mem_checks_of_ended hended, by simpa using hu⟩

/-- A run of a document that was started is one of the runs of that document. -/
theorem mem_startsOf {u : Url} {H : List Moment} {run : CheckRun} :
    run ∈ startsOf u H ↔ run ∈ starts H ∧ run.url = u := by
  simp [startsOf]

/-- Later runs do not move the places of the runs that a moment ends. -/
theorem Moment.turns_append {u : Url} {m : Moment} {runs : List CheckRun}
    (hruns : ∀ e ∈ m.endings u, e.1 ∈ runs) (later : List CheckRun) :
    m.turns u (runs ++ later) = m.turns u runs := by
  unfold Moment.turns
  split
  · rfl
  · exact List.map_congr_left fun e he => by rw [List.idxOf_append_of_mem (hruns e he)]

namespace Linked

variable {u : Url} {H : List Moment} {s : Session} {m : Moment}

/-- Every run that has ended was started. -/
theorem mem_starts_of_ended (h : Linked H s) {e : CheckRun × Outcome} (he : e ∈ ends H) :
    e.1 ∈ starts H :=
  h.account.mem_iff.2 (List.mem_append_left _ (List.mem_map_of_mem he))

/-- The turns of a history that grows by a moment grow by the turns of that moment. -/
theorem turns_concat (h : Linked H m.before) :
    turns u (H ++ [m]) = turns u H ++ m.turns u (startsOf u H) := by
  have hold : ∀ n ∈ H, n.turns u (startsOf u (H ++ [m])) = n.turns u (startsOf u H) := by
    intro n hn
    rw [startsOf_concat]
    refine Moment.turns_append (fun e he => ?_) _
    have hended : e ∈ ends H :=
      List.mem_flatMap.2 ⟨n, hn, (List.mem_filter.1 he).1⟩
    exact mem_startsOf.2 ⟨h.mem_starts_of_ended hended, (Moment.mem_of_endings he).2⟩
  have hnew : m.turns u (startsOf u (H ++ [m])) = m.turns u (startsOf u H) := by
    rw [startsOf_concat]
    refine Moment.turns_append (fun e he => ?_) _
    obtain ⟨hrun, hu⟩ := Moment.mem_of_endings he
    exact mem_startsOf.2 ⟨h.mem_starts hrun, hu⟩
  rw [turns, turns, List.flatMap_append, List.flatMap_congr hold]
  simp [hnew]

end Linked

section Log

variable {u : Url} {H : List Moment} {m : Moment}

theorem log_concat_of_turn (hconcerns : m.concerns u = true) :
    log u (H ++ [m]) = log u H ++ [(m.after.documents.get? u, m.heard u)] := by
  simp [log, hconcerns]

theorem log_concat_of_other (hother : m.concerns u = false) : log u (H ++ [m]) = log u H := by
  simp [log, hother]

theorem heard_concat : heard u (H ++ [m]) = heard u H ++ m.heard u := by
  simp [heard]

end Log

/-! ## What one moment changes -/

theorem startCheck_documents (s : Session) (u : Url) :
    (s.startCheck u).1.documents = s.documents := by
  rcases startCheck_cases s u with h | ⟨-, h⟩ | ⟨_, _, -, -, h⟩ <;> rw [h]

/-- Linting adds at most one run, and it is about the linted document. -/
theorem startCheck_checks (s : Session) (u : Url) {run : CheckRun}
    (hrun : run ∈ (s.startCheck u).1.checks) : run ∈ s.checks ∨ run.url = u := by
  rcases startCheck_cases s u with h | ⟨-, h⟩ | ⟨path, entry, -, -, h⟩
  · exact Or.inl (by simpa [h] using hrun)
  · exact Or.inl (by simpa [h] using hrun)
  · rw [h] at hrun
    rcases List.mem_append.1 hrun with hrun | hrun
    · exact Or.inl hrun
    · exact Or.inr (by rw [List.mem_singleton.1 hrun])

/-- A run under way after a step was under way before, or the editor did something to its
document. -/
theorem step_checks (s : Session) (e : Event) {run : CheckRun} (hrun : run ∈ (s.step e).1.checks) :
    run ∈ s.checks ∨ e.edits run.url = true := by
  cases e with
  | opened v text language version =>
    exact (startCheck_checks _ v hrun).imp_right fun hurl => by simp [Event.edits, hurl]
  | saved v text? =>
    exact (startCheck_checks _ v hrun).imp_right fun hurl => by simp [Event.edits, hurl]
  | checked generation outcome =>
    change run ∈ (s.finishCheck generation outcome).1.checks at hrun
    unfold finishCheck at hrun
    split at hrun
    · exact Or.inl hrun
    · exact Or.inl (List.mem_of_mem_filter hrun)
  | formatRequested request v range? =>
    exact Or.inl ((startFormat_aside s request v range?).1 ▸ hrun)
  | formatted request outcome => exact Or.inl ((finishFormat_aside s request outcome).1 ▸ hrun)
  | changed v texts version => exact Or.inl hrun
  | closed v => exact Or.inl hrun
  | cancelled request => exact Or.inl hrun

namespace Moment

variable {u : Url} {m : Moment}

/-- A moment changes a stored document as its event says, and the others not at all. -/
theorem get_after (m : Moment) (u : Url) :
    m.after.documents.get? u =
      if m.event.edits u then m.event.rewrite (m.before.documents.get? u)
      else m.before.documents.get? u := by
  obtain ⟨s, e⟩ := m
  cases e with
  | opened v text language version =>
    simp [after, step, startCheck_documents, Store.get_opened, Event.edits, Event.rewrite,
      eq_comm]
  | changed v texts version =>
    cases hlast : texts.getLast? with
    | none => simp [after, step, Store.changed, hlast, Event.edits, Event.rewrite]
    | some t =>
      by_cases hv : v = u
      · subst hv
        simp [after, step, Store.changed, hlast, Event.edits, Event.rewrite, Table.get_update]
      · simp [after, step, Store.get_changed_of_ne _ (Ne.symm hv), Event.edits, hv]
  | saved v text? =>
    by_cases hv : v = u
    · subst hv
      simp [after, step, startCheck_documents, Store.saved, Event.edits, Event.rewrite,
        Table.get_update]
    · simp [after, step, startCheck_documents, Store.saved, Event.edits, Table.get_update,
        hv, Ne.symm hv]
  | closed v =>
    simp [after, step, Store.get_closed, Event.edits, Event.rewrite, eq_comm]
  | checked generation outcome =>
    simp only [after, step, finishCheck, Event.edits]
    split <;> simp
  | formatRequested request v range? =>
    simp only [after, step, startFormat, Event.edits]
    split
    · split
      · simp
      · split <;> simp
    · simp
  | formatted request outcome =>
    simp only [after, step, finishFormat, Event.edits]
    split <;> simp
  | cancelled request => simp [after, step, Event.edits]

/-- Runs of a document start only when the editor does something to it. -/
theorem edits_of_started {run : CheckRun} (h : run ∈ m.started) :
    m.event.edits run.url = true := by
  obtain ⟨hafter, hnew⟩ := List.mem_filter.1 h
  exact (step_checks m.before m.event hafter).resolve_left (by simpa using hnew)

/-- A moment marks a document only when the editor does something to it. -/
theorem marks_eq_nil_of_not_edits (h : m.event.edits u = false) : m.marks u = [] := by
  have hclosings : m.closings u = [] := by
    unfold closings
    split
    · rename_i v hevent
      have hv : ¬ v = u := by simpa [hevent, Event.edits] using h
      rw [if_neg hv]
    · rfl
  have hstarted : m.started.filter (fun run => run.url = u) = [] := by
    refine List.filter_eq_nil_iff.2 fun run hrun hu => ?_
    have hedits := edits_of_started hrun
    rw [of_decide_eq_true hu, h] at hedits
    cases hedits
  rw [marks, hclosings, hstarted]
  rfl

end Moment

/-! ## Moments that concern a document, and others -/

namespace Linked

variable {u : Url} {H : List Moment} {m : Moment}

/-- A moment that ends runs of a document ends one of them. -/
theorem finish_of_endings (h : Linked H m.before) (hendings : m.endings u ≠ []) :
    ∃ run outcome, m.event = .checked run.generation outcome ∧ run ∈ m.before.checks ∧
      run.url = u ∧ m.endings u = [(run, outcome)] ∧
      m.after.checks = m.before.checks.filter (fun r => r.generation ≠ run.generation) ∧
      m.effects =
        if m.before.generations.isCurrent run.url run.generation then
          m.before.verdict run outcome
        else [] := by
  cases m.change with
  | quiet hclosings hended hchecks hgenerations heffects =>
    exact absurd (by simp [Moment.endings, hended]) hendings
  | closing v hevent hchecks hgenerations heffects =>
    exact absurd (by simp [Moment.endings, Moment.ended, hevent]) hendings
  | number v hclosings hended hpath hchecks hgenerations heffects =>
    exact absurd (by simp [Moment.endings, hended]) hendings
  | start run hclosings hended hgeneration hpath hentry hchecks hgenerations heffects =>
    exact absurd (by simp [Moment.endings, hended]) hendings
  | finish run outcome hevent hrun hchecks hgenerations heffects =>
    have hended := h.ended_eq hevent hrun
    have hurl : run.url = u := by
      by_contra hne
      exact hendings (by simp [Moment.endings, hended, hne])
    have hsingle : m.endings u = [(run, outcome)] := by simp [Moment.endings, hended, hurl]
    exact ⟨run, outcome, hevent, hrun, hurl, hsingle, hchecks, heffects⟩

/-- A moment that does not concern a document leaves the same runs of it under way. -/
theorem checks_of_other (h : Linked H m.before) (hother : m.concerns u = false) :
    ∀ run ∈ startsOf u H, (run ∈ m.after.checks ↔ run ∈ m.before.checks) := by
  obtain ⟨hedits, hendings⟩ := Bool.or_eq_false_iff.1 hother
  intro r hr
  obtain ⟨hstarted, hr⟩ := mem_startsOf.1 hr
  cases m.change with
  | quiet hclosings hended hchecks hgenerations heffects => rw [hchecks]
  | closing v hevent hchecks hgenerations heffects => rw [hchecks]
  | number v hclosings hended hpath hchecks hgenerations heffects => rw [hchecks]
  | start run hclosings hended hgeneration hpath hentry hchecks hgenerations heffects =>
    have hnew := Moment.started_eq_singleton hchecks (h.not_mem_checks_of_fresh hgeneration)
    have hne : r ≠ run := by
      rintro rfl
      have hedited := Moment.edits_of_started (hnew ▸ List.mem_singleton_self r)
      rw [hr, hedits] at hedited
      cases hedited
    simp [hchecks, hne]
  | finish run outcome hevent hrun hchecks hgenerations heffects =>
    have hne : r.generation ≠ run.generation := by
      intro hsame
      have heq := h.eq_of_generation hstarted (h.mem_starts hrun) hsame
      simp [Moment.endings, h.ended_eq hevent hrun, ← heq, hr] at hendings
    simp [hchecks, hne]

/-- A moment that does not concern a document says nothing about it. -/
theorem heard_of_other (h : Linked H m.before) (hother : m.concerns u = false) :
    m.heard u = [] := by
  obtain ⟨hedits, hendings⟩ := Bool.or_eq_false_iff.1 hother
  have hendings : (m.endings u).isEmpty = true := by simpa using hendings
  have hpublished : m.published u = [] := by
    rcases h.published_cases u with hnone | ⟨hclosed, -⟩ | ⟨run, outcome, hended, hurl, -⟩
    · exact hnone
    · simp [hclosed, Event.edits] at hedits
    · simp [Moment.endings, hended, hurl] at hendings
  refine List.filterMap_eq_nil_iff.2 fun e he => ?_
  cases e with
  | check generation invocation =>
    have hnone : ¬ m.started.any (fun run => run.generation = generation ∧ run.url = u) = true := by
      intro hany
      obtain ⟨run, hrun, hrun'⟩ := List.any_eq_true.1 hany
      have hedited := Moment.edits_of_started hrun
      rw [(of_decide_eq_true hrun').2, hedits] at hedited
      cases hedited
    rw [Moment.notice?, if_neg hnone]
  | publish v diagnostics version? =>
    have hv : ¬ v = u := by
      rintro rfl
      simpa [Effect.publication?] using List.filterMap_eq_nil_iff.1 hpublished _ he
    rw [Moment.notice?, if_neg hv]
  | showError message => rw [Moment.notice?, if_pos hendings]
  | format request invocation => rfl
  | answer request edits? => rfl

end Linked

end Session

end FishCheck
