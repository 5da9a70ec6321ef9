import FishCheck.Session.Handlers
import Mathlib.Data.List.Basic

/-!
# The steps of handlers

This module says what one step of a handler can do, and what becomes of a handler that
nobody disturbs: it takes its document through the same changes, and sends the same
messages, as the event of a session does in one step.  So the handlers add nothing to a
session but the ways in which they can come between each other.

Main results:

- Theorems `excludes_next`, `generations_next`: what a step puts behind a handler, and what
  it does to the numbers.
- Theorems `leads_ofEditing`, `leads_removing`, `leads_checking`: a handler that nobody
  disturbs does what the event of a session does.
- Theorem `run_of_leads`: so do the moves of that handler among others that do not read.
-/

namespace FishCheck

namespace Session

namespace Stage

/-! ## What a handler has done so far -/

/-- The acts that a handler at a stage has not done.  A run has the number of its stage,
and a handler that does not lint has none. -/
def excludes (stage : Stage) : Act → Bool
  | .numbered generation =>
    match stage with
    | checking run => run.generation ≠ generation
    | answering own _ | judging own _ => own ≠ generation
    | sending .. | done => false
    | _ => true
  | .judged _ | .sent _ =>
    match stage with
    | sending .. | done => false
    | _ => true
  | .removed =>
    match stage with
    | retiring | clearing | done => false
    | _ => true
  | .retired =>
    match stage with
    | clearing | done => false
    | _ => true
  | _ => false

variable {s after : Session} {u : Url} {reading : Bool} {outcome : Outcome}
  {stage next : Stage} {act : Act}

/-- A handler that is done may have done anything. -/
theorem excludes_done (a : Act) : done.excludes a = false := by
  cases a <;> rfl

theorem excludes_ofEffects (effects : List Effect) {a : Act} (hremoved : a ≠ .removed)
    (hretired : a ≠ .retired) : (ofEffects effects).excludes a = false := by
  cases effects with
  | nil => exact excludes_done a
  | cons e es => cases a <;> first | rfl | contradiction

/-- What a handler may have done is not what it has not done. -/
theorem ne_of_excludes {a b : Act} (ha : stage.excludes a = false)
    (hb : stage.excludes b = true) : a ≠ b := by
  rintro rfl
  rw [ha] at hb
  cases hb

/-- Once done, an act stays behind the handler. -/
theorem excludes_next (h : stage.next? s u reading outcome = some (act, after, next)) :
    next.excludes act = false ∧ ∀ a, stage.excludes a = false → next.excludes a = false := by
  revert h
  fun_cases next? s u reading outcome stage
  all_goals
    intro h
    cases h
  -- from these two stages a handler may go on to its messages
  case case9 generation effects current =>
    refine ⟨?_, fun a ha => ?_⟩
    · split
      · exact excludes_ofEffects effects (by simp) (by simp)
      · exact excludes_done _
    · split
      · exact excludes_ofEffects effects (ne_of_excludes ha rfl) (ne_of_excludes ha rfl)
      · exact excludes_done a
  case case10 effect effects =>
    exact ⟨excludes_ofEffects effects (by simp) (by simp), fun a ha =>
      excludes_ofEffects effects (ne_of_excludes ha rfl) (ne_of_excludes ha rfl)⟩
  all_goals refine ⟨?_, fun a ha => ?_⟩
  all_goals
    first
    | exact excludes_done _
    | split <;> first | rfl | exact excludes_done _ | exact ha
    | cases a <;> simp_all [excludes]
    | simp +zetaDelta [excludes]

/-- What a step does to the numbers. -/
theorem generations_next (h : stage.next? s u reading outcome = some (act, after, next)) :
    (act = .numbered s.generations.next ∧ after.generations = s.generations.start u) ∨
    (act = .retired ∧ after.generations = s.generations.retire u) ∨
    ((∀ n, act ≠ .numbered n) ∧ act ≠ .retired ∧ after.generations = s.generations) := by
  revert h
  fun_cases next? s u reading outcome stage
  all_goals
    intro h
    cases h
  all_goals simp +zetaDelta

/-- Numbers are never taken back. -/
theorem issued_le_next (h : stage.next? s u reading outcome = some (act, after, next)) :
    s.generations.issued ≤ after.generations.issued := by
  rcases generations_next h with ⟨-, hg⟩ | ⟨-, hg⟩ | ⟨-, -, hg⟩
  · exact Nat.le_trans (Nat.le_succ _) (Nat.le_of_eq (congrArg (·.issued) hg.symm))
  · exact Nat.le_of_eq (congrArg (·.issued) hg.symm)
  · exact Nat.le_of_eq (congrArg (·.issued) hg.symm)

/-- A removal finds nobody reading. -/
theorem reading_of_removed (h : stage.next? s u reading outcome = some (.removed, after, next)) :
    reading = false ∧ stage = .removing := by
  revert h
  fun_cases next? s u reading outcome stage
  all_goals
    intro h
    cases h
  rename_i hreading
  exact ⟨Bool.eq_false_iff.2 hreading, rfl⟩

/-- A handler is judged once, before it sends. -/
theorem stage_of_judged {current : Bool}
    (h : stage.next? s u reading outcome = some (.judged current, after, next)) :
    ∃ generation effects, stage = .judging generation effects := by
  revert h
  fun_cases next? s u reading outcome stage
  all_goals
    intro h
    first
    | cases h
    | exact ⟨_, _, rfl⟩

/-- Messages come from a handler that reads, but for the one that clears. -/
theorem stage_of_sent {e : Effect}
    (h : stage.next? s u reading outcome = some (.sent e, after, next)) :
    stage = .clearing ∨ ∃ es, stage = .sending e es := by
  revert h
  fun_cases next? s u reading outcome stage
  all_goals
    intro h
    cases h
  · exact .inr ⟨_, rfl⟩
  · exact .inl rfl

/-- A handler gets to its messages when its number is found current, and from one message
to the next. -/
theorem stage_of_sending {e : Effect} {es : List Effect}
    (h : stage.next? s u reading outcome = some (act, after, .sending e es)) :
    (∃ generation effects, stage = .judging generation effects ∧ act = .judged true ∧
      s.generations.isCurrent u generation = true) ∨
    ∃ e' es', stage = .sending e' es' ∧ act = .sent e' := by
  revert h
  fun_cases next? s u reading outcome stage
  all_goals
    intro h
    first
    | cases h
    | obtain ⟨rfl, rfl, hnext⟩ := by simpa only [Option.some.injEq, Prod.mk.injEq] using h
  case case2 => split at hnext <;> cases hnext
  case case4 => split at hnext <;> cases hnext
  case case9 generation effects current =>
    split at hnext
    · rename_i hcurrent
      exact .inl ⟨generation, effects, rfl, congrArg Act.judged hcurrent, hcurrent⟩
    · cases hnext
  case case10 effect effects => exact .inr ⟨effect, effects, rfl, rfl⟩

/-- Only who wants to write looks whether somebody reads. -/
theorem next_of_reading (hreads : reading = true → stage.reads = true)
    (h : stage.next? s u false outcome = some (act, after, next)) :
    stage.next? s u reading outcome = some (act, after, next) := by
  cases reading with
  | false => exact h
  | true =>
    cases stage with
    | storing editing => cases hreads rfl
    | removing => cases hreads rfl
    | _ => exact h

/-! ## Handlers that nobody disturbs -/

/-- Left alone, a handler gets from one stage to another, with the messages that it sends
on the way. -/
inductive Leads (u : Url) (outcome : Outcome) :
    Session → Stage → List Effect → Session → Stage → Prop
  | stay (s : Session) (stage : Stage) : Leads u outcome s stage [] s stage
  | go {s after last : Session} {stage next goal : Stage} {act : Act} {effects : List Effect}
      (hnext : stage.next? s u false outcome = some (act, after, next))
      (hrest : Leads u outcome after next effects last goal) :
      Leads u outcome s stage (act.message?.toList ++ effects) last goal

section Leads

variable {goal : Stage} {last : Session} {effects : List Effect} {e : Effect}

/-- A step without a message. -/
theorem Leads.quiet (hnext : stage.next? s u false outcome = some (act, after, next))
    (hact : act.message? = none) (hrest : Leads u outcome after next effects last goal) :
    Leads u outcome s stage effects last goal := by
  have hleads := Leads.go hnext hrest
  rwa [hact] at hleads

/-- A step that sends a message. -/
theorem Leads.send (hnext : stage.next? s u false outcome = some (.sent e, after, next))
    (hrest : Leads u outcome after next effects last goal) :
    Leads u outcome s stage (e :: effects) last goal :=
  .go hnext hrest

end Leads

/-- Messages that are left are all sent. -/
theorem leads_ofEffects (s : Session) (u : Url) (outcome : Outcome) (effects : List Effect) :
    Leads u outcome s (ofEffects effects) effects s done := by
  induction effects with
  | nil => exact .stay s done
  | cons e es ih =>
    have hsent : (sending e es).next? s u false outcome = some (.sent e, s, ofEffects es) := rfl
    exact .send hsent ih

/-- Closing a document does what the event of a session does. -/
theorem leads_removing (s : Session) (u : Url) (outcome : Outcome) :
    Leads u outcome s removing (s.step (.closed u)).2 (s.step (.closed u)).1 done := by
  let removed : Session := { s with documents := s.documents.closed u }
  let retired : Session := { removed with generations := s.generations.retire u }
  have hremoved : removing.next? s u false outcome = some (.removed, removed, retiring) := rfl
  have hretired : retiring.next? removed u false outcome = some (.retired, retired, clearing) := rfl
  have hcleared : clearing.next? retired u false outcome =
      some (.sent (.publish u [] none), retired, done) := rfl
  exact .quiet hremoved rfl (.quiet hretired rfl (.send hcleared (.stay retired done)))

/-- The end of a checker run does what the event of a session does. -/
theorem leads_checking {s : Session} {run : CheckRun} (outcome : Outcome)
    (hrun : s.checks.find? (fun r => r.generation = run.generation) = some run) :
    Leads run.url outcome s (checking run) (s.step (.checked run.generation outcome)).2
      (s.step (.checked run.generation outcome)).1 done := by
  let ended : Session :=
    { s with checks := s.checks.filter fun r => r.generation ≠ run.generation }
  let effects := s.verdict run outcome
  have hended : (checking run).next? s run.url false outcome =
      some (.returned, ended, answering run.generation effects) := rfl
  have hlocked : (answering run.generation effects).next? ended run.url false outcome =
      some (.locked, ended, judging run.generation effects) := rfl
  have hjudged : (judging run.generation effects).next? ended run.url false outcome =
      some (.judged (s.generations.isCurrent run.url run.generation), ended,
        if s.generations.isCurrent run.url run.generation then ofEffects effects else done) := rfl
  refine .quiet hended rfl (.quiet hlocked rfl (.quiet hjudged rfl ?_))
  simp only [step, finishCheck, hrun]
  split
  · exact leads_ofEffects ended run.url outcome effects
  · exact .stay ended done

/-- The checker run that a handler has got to. -/
def launched (s : Session) : Stage → List Effect
  | checking run => [.check run.generation (Lint.invocation s.settings s.root run.path)]
  | _ => []

/-- A handler that is to lint starts the checker run that the session starts. -/
theorem leads_finding (s : Session) (u : Url) (outcome : Outcome)
    (hon : s.settings.enableLinting = true) :
    ∃ stage, Leads u outcome s finding [] (s.startCheck u).1 stage ∧
      (s.startCheck u).2 = launched s stage := by
  simp only [startCheck, hon, if_true]
  cases hentry : s.documents.get? u with
  | none =>
    have hfound : finding.next? s u false outcome = some (.found none, s, done) := by
      simp only [next?, hentry]
    exact ⟨done, .quiet hfound rfl (.stay s done), rfl⟩
  | some e =>
    have hfound : finding.next? s u false outcome = some (.found (some e), s,
        if (⟨u, e.text, e.language, e.saved⟩ : Lint.Request).isEligible then numbering e
        else done) := by
      simp only [next?, hentry]
    simp only
    split
    · rename_i heligible
      rw [if_pos heligible] at hfound
      cases htarget : (⟨u, e.text, e.language, e.saved⟩ : Lint.Request).target? with
      | none =>
        have hnumbered : (numbering e).next? s u false outcome =
            some (.numbered s.generations.next, { s with generations := s.generations.start u },
              answering s.generations.next []) := by
          simp only [next?, htarget]
        exact ⟨_, .quiet hfound rfl (.quiet hnumbered rfl (.stay _ _)), rfl⟩
      | some path =>
        have hnumbered : (numbering e).next? s u false outcome =
            some (.numbered s.generations.next,
              { s with
                  generations := s.generations.start u
                  checks := s.checks ++ [⟨s.generations.next, u, path, e⟩] },
              checking ⟨s.generations.next, u, path, e⟩) := by
          simp only [next?, htarget]
        exact ⟨_, .quiet hfound rfl (.quiet hnumbered rfl (.stay _ _)), rfl⟩
    · rename_i heligible
      rw [if_neg heligible] at hfound
      exact ⟨done, .quiet hfound rfl (.stay s done), rfl⟩

/-- An edit does what the event of a session does. -/
theorem leads_ofEditing (s : Session) (u : Url) (outcome : Outcome) (editing : Editing) :
    ∃ stage, Leads u outcome s (ofEditing editing) [] (s.step (editing.event u)).1 stage ∧
      (s.step (editing.event u)).2 = launched s stage := by
  let stored : Session := { s with documents := editing.applyTo s.documents u }
  have hstored : (storing editing).next? s u false outcome = some (.stored editing, stored,
      if editing.lints && s.settings.enableLinting then finding else done) := rfl
  have hlint : editing.lints = true → s.step (editing.event u) = stored.startCheck u →
      ∃ stage, Leads u outcome s (storing editing) [] (s.step (editing.event u)).1 stage ∧
        (s.step (editing.event u)).2 = launched s stage := by
    intro hlints hstep
    rw [hlints, Bool.true_and] at hstored
    rw [hstep]
    by_cases hon : s.settings.enableLinting = true
    · rw [if_pos hon] at hstored
      obtain ⟨stage, hleads, hlaunched⟩ := leads_finding stored u outcome hon
      exact ⟨stage, .quiet hstored rfl hleads, hlaunched⟩
    · rw [if_neg hon] at hstored
      have hoff : stored.startCheck u = (stored, []) := if_neg hon
      rw [hoff]
      exact ⟨done, .quiet hstored rfl (.stay stored done), rfl⟩
  cases editing with
  | opened text language version => exact hlint rfl rfl
  | saved text? => exact hlint rfl rfl
  | changed texts version =>
    cases texts with
    | nil => exact ⟨done, .stay s done, rfl⟩
    | cons text texts => exact ⟨done, .quiet hstored rfl (.stay stored done), rfl⟩

end Stage

end Session

namespace Handlers

open Session

/-- What a handler does alone, it also does among others that do not read. -/
theorem run_of_leads {h : Handlers} {i : Nat} {u : Url} {outcome : Outcome} {last : Session}
    {stage goal : Stage} {effects : List Effect} (ht : h.tasks[i]? = some ⟨u, stage⟩)
    (hothers : ∀ k t, k ≠ i → h.tasks[k]? = some t → t.stage.reads = false)
    (hleads : Stage.Leads u outcome h.session stage effects last goal) :
    ∃ n after, h.run (List.replicate n (.go i outcome)) = some after ∧ after.session = last ∧
      after.tasks = h.tasks.set i ⟨u, goal⟩ ∧ after.sent = h.sent ++ effects := by
  obtain ⟨s, hs⟩ : ∃ s, h.session = s := ⟨_, rfl⟩
  rw [hs] at hleads
  induction hleads generalizing h with
  | stay s stage =>
    obtain ⟨hlt, htask⟩ := List.getElem?_eq_some_iff.1 ht
    refine ⟨0, h, rfl, hs, ?_, (List.append_nil _).symm⟩
    rw [← htask, List.set_getElem_self]
  | @go s next last stage following goal act effects hnext hrest ih =>
    have hreading : h.reading = true → stage.reads = true := by
      intro hreading
      obtain ⟨t, hmem, hreads⟩ := List.any_eq_true.1 hreading
      obtain ⟨k, hk⟩ := List.mem_iff_getElem?.1 hmem
      by_cases hki : k = i
      · rw [hki, ht] at hk
        obtain rfl := Option.some.inj hk
        exact hreads
      · rw [hothers k t hki hk] at hreads
        cases hreads
    have hstep : h.step (.go i outcome) = some (h.afterStep i ⟨u, stage⟩ act next following) := by
      rw [step, ht, Option.bind_some, hs, Stage.next_of_reading hreading hnext]
      rfl
    have hlt := (List.getElem?_eq_some_iff.1 ht).1
    have ht' : (h.afterStep i ⟨u, stage⟩ act next following).tasks[i]? = some ⟨u, following⟩ := by
      simp [afterStep, hlt]
    have hothers' : ∀ k t, k ≠ i →
        (h.afterStep i ⟨u, stage⟩ act next following).tasks[k]? = some t → t.stage.reads = false := by
      intro k t hki hk
      rw [afterStep, List.getElem?_set_ne hki.symm] at hk
      exact hothers k t hki hk
    obtain ⟨n, after, hrun, hsession, htasks, hsent⟩ := ih ht' hothers' rfl
    refine ⟨n + 1, after, ?_, hsession, ?_, ?_⟩
    · rw [List.replicate_succ, run, hstep, Option.bind_some]
      exact hrun
    · rw [htasks, afterStep, List.set_set]
    · rw [hsent, sent, afterStep, List.filterMap_append, List.append_assoc]
      cases act <;> rfl

end Handlers

end FishCheck
