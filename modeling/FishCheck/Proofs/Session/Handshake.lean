import FishCheck.Proofs.Session.Handlers
import Mathlib.Data.List.Basic
import Mathlib.Data.List.Chain

/-!
# Closing a document while it is linted

A handler that closes a document removes it, retires its number and clears its diagnostics,
in three steps.  A lint run of the document may come in between them.  If it is judged
after the removal and before the number is retired, it is found current, and nothing keeps
it from sending its diagnostics after the cleared ones; if it began there, because the
document was opened again, the number that is retired is its own.  This module shows that
nothing else can go wrong: where each retirement follows its removal at once, a run sends
nothing after its document was closed, and no close touches a run of a later opening.

Main results:

- Theorem `Consistent.step`: what the log says about the handlers and the numbers.
- Theorem `judged_between`: a run that sends after a close was judged within that close.
- Theorem `handshake_of_undivided`: no run is too late, and none is retired by mistake, if
  no step comes between a removal and its retirement.
- Theorem `handshake_divided`: both happen if other steps do.
-/

namespace FishCheck

namespace Handlers

open Session

/-! ## Order in a log -/

section Order

variable {α : Type} {x y z d : α} {l : List α}

/-- What comes in order in a longer list ends with its last element, or came before. -/
theorem concat_sublist_concat (front : List α) :
    (front ++ [y]).Sublist (l ++ [d]) ↔ (front ++ [y]).Sublist l ∨ y = d ∧ front.Sublist l := by
  constructor
  · intro h
    obtain ⟨first, second, heq, hfirst, hsecond⟩ := List.sublist_append_iff.1 h
    rcases List.sublist_singleton.1 hsecond with rfl | rfl
    · rw [List.append_nil] at heq
      exact .inl (heq ▸ hfirst)
    · obtain ⟨rfl, hlast⟩ := List.append_inj' heq rfl
      exact .inr ⟨List.head_eq_of_cons_eq hlast, hfirst⟩
  · rintro (h | ⟨rfl, h⟩)
    · exact h.trans (List.sublist_append_left l [d])
    · exact h.append (List.Sublist.refl [y])

theorem pair_sublist_concat : [x, y].Sublist (l ++ [d]) ↔ [x, y].Sublist l ∨ y = d ∧ x ∈ l := by
  rw [← List.singleton_sublist]
  exact concat_sublist_concat [x]

theorem triple_sublist_concat :
    [x, y, z].Sublist (l ++ [d]) ↔ [x, y, z].Sublist l ∨ z = d ∧ [x, y].Sublist l :=
  concat_sublist_concat [x, y]

/-- Of two elements in a list, the later one is behind the first place of the earlier one. -/
theorem exists_split_of_pair (h : [x, y].Sublist l) :
    ∃ front back, l = front ++ x :: back ∧ y ∈ back := by
  obtain ⟨r, back, rfl, hx, hy⟩ := List.cons_sublist_iff.1 h
  obtain ⟨front, middle, rfl⟩ := List.append_of_mem hx
  exact ⟨front, middle ++ back, by simp, List.mem_append_right _ (List.singleton_sublist.1 hy)⟩

end Order

/-! ## What the log says -/

/-- A run was found current after a closing handler removed the document, and not after
that handler retired its number. -/
def JudgedBetween (log : List Deed) (u : Url) (i j : Nat) : Prop :=
  [⟨j, u, .removed⟩, ⟨i, u, .judged true⟩].Sublist log ∧
    ¬ [(⟨j, u, .retired⟩ : Deed), ⟨i, u, .judged true⟩].Sublist log

/-- What the log says about the handlers and the numbers. -/
structure Consistent (h : Handlers) : Prop where
  /-- All deeds are deeds of handlers that are there. -/
  task_lt : ∀ d ∈ h.log, d.task < h.tasks.length
  /-- What a handler did is behind it. -/
  behind : ∀ i t, h.tasks[i]? = some t →
    ∀ d ∈ h.log, d.task = i → d.url = t.url ∧ t.stage.excludes d.act = false
  issued : ∀ i u n, ⟨i, u, .numbered n⟩ ∈ h.log → n ≤ h.session.generations.issued
  /-- A number is outdated once the number of its document was retired. -/
  outdated : ∀ i j u n, [⟨i, u, .numbered n⟩, ⟨j, u, .retired⟩].Sublist h.log →
    h.session.generations.isCurrent u n = false
  /-- A closing handler retires after it removes. -/
  closing : ∀ i j u n, [⟨i, u, .numbered n⟩, ⟨j, u, .removed⟩].Sublist h.log →
    ⟨j, u, .retired⟩ ∈ h.log → [⟨i, u, .numbered n⟩, ⟨j, u, .retired⟩].Sublist h.log
  /-- A run that sends was judged within each close that overtook it. -/
  sending : ∀ i t e es, h.tasks[i]? = some t → t.stage = .sending e es →
    ∀ j n, [⟨i, t.url, .numbered n⟩, ⟨j, t.url, .removed⟩].Sublist h.log →
      JudgedBetween h.log t.url i j
  /-- So was a run that sent something after the document was removed. -/
  sent : ∀ i j u n e, [⟨i, u, .numbered n⟩, ⟨j, u, .removed⟩, ⟨i, u, .sent e⟩].Sublist h.log →
    JudgedBetween h.log u i j

/-- Nothing is said about handlers that did nothing. -/
theorem consistent_justSetUp (settings : Settings) (root home : Option Path) :
    Consistent (justSetUp settings root home) where
  task_lt := by simp [justSetUp]
  behind := by simp [justSetUp]
  issued := by simp [justSetUp]
  outdated := by simp [justSetUp]
  closing := by simp [justSetUp]
  sending := by simp [justSetUp]
  sent := by simp [justSetUp]

/-- A handler that comes in did nothing yet. -/
theorem Consistent.enter {h : Handlers} (hc : Consistent h) {u : Url} {stage : Stage}
    (hstage : stage = .removing ∨ ∃ editing, stage = .ofEditing editing) :
    Consistent (h.enter u stage) := by
  have htasks : ∀ i t, (h.enter u stage).tasks[i]? = some t →
      h.tasks[i]? = some t ∨ i = h.tasks.length ∧ t = ⟨u, stage⟩ := by
    intro i t ht
    simp only [Handlers.enter] at ht
    rcases Nat.lt_trichotomy i h.tasks.length with hlt | rfl | hgt
    · rw [List.getElem?_append_left hlt] at ht
      exact .inl ht
    · rw [List.getElem?_concat_length] at ht
      exact .inr ⟨rfl, (Option.some.inj ht).symm⟩
    · rw [List.getElem?_eq_none (by rw [List.length_append]; exact hgt)] at ht
      cases ht
  refine ⟨fun d hd => ?_, fun i t ht d hd hi => ?_, hc.issued, hc.outdated, hc.closing,
    fun i t e es ht hsending => ?_, hc.sent⟩
  · have hlt := hc.task_lt d hd
    simp only [Handlers.enter, List.length_append, List.length_singleton]
    omega
  · rcases htasks i t ht with ht | ⟨rfl, rfl⟩
    · exact hc.behind i t ht d hd hi
    · exact absurd (hc.task_lt d hd) (by omega)
  · rcases htasks i t ht with ht | ⟨rfl, rfl⟩
    · exact hc.sending i t e es ht hsending
    · rcases hstage with rfl | ⟨editing, rfl⟩
      · cases hsending
      · simp only [Stage.ofEditing] at hsending
        split at hsending <;> cases hsending

/-- A judgement that lies between goes on lying there. -/
theorem JudgedBetween.concat {log : List Deed} {u : Url} {i j : Nat}
    (h : JudgedBetween log u i j) {d : Deed} (hd : d ≠ ⟨i, u, .judged true⟩) :
    JudgedBetween (log ++ [d]) u i j := by
  refine ⟨h.1.trans (List.sublist_append_left log [d]), fun hpair => ?_⟩
  rcases pair_sublist_concat.1 hpair with hold | ⟨heq, -⟩
  · exact h.2 hold
  · exact hd heq.symm

section Step

variable {h : Handlers} {i : Nat} {t : Task} {outcome : Outcome} {act : Act}
  {session : Session} {stage : Stage}

/-- A step leaves the other handlers where they are. -/
theorem task_afterStep {k : Nat} {t' : Task}
    (h' : (afterStep h i t act session stage).tasks[k]? = some t') :
    k = i ∧ t' = ⟨t.url, stage⟩ ∨ k ≠ i ∧ h.tasks[k]? = some t' := by
  simp only [afterStep, List.getElem?_set] at h'
  by_cases hk : i = k
  · rw [if_pos hk] at h'
    split at h'
    · exact .inl ⟨hk.symm, (Option.some.inj h').symm⟩
    · cases h'
  · rw [if_neg hk] at h'
    exact .inr ⟨Ne.symm hk, h'⟩

/-- A handler has not done what its stage excludes. -/
theorem Consistent.not_mem_of_excludes (hc : Consistent h) (ht : h.tasks[i]? = some t)
    {a : Act} (ha : t.stage.excludes a = true) (u : Url) : ⟨i, u, a⟩ ∉ h.log := by
  intro hmem
  obtain ⟨-, hexcludes⟩ := hc.behind i t ht _ hmem rfl
  rw [ha] at hexcludes
  cases hexcludes

/-- The number of a run that is about to be judged. -/
theorem Consistent.number_of_judging (hc : Consistent h) (ht : h.tasks[i]? = some t)
    {generation : Nat} {effects : List Effect} (hstage : t.stage = .judging generation effects)
    {u : Url} {n : Nat} (hn : ⟨i, u, .numbered n⟩ ∈ h.log) : n = generation := by
  obtain ⟨-, hexcludes⟩ := hc.behind i t ht _ hn rfl
  rw [hstage] at hexcludes
  exact (not_not.1 (of_decide_eq_false hexcludes)).symm

/-! Each part of what the log says is kept by a step. -/

variable (hc : Consistent h)
  (hnext : t.stage.next? h.session t.url h.reading outcome = some (act, session, stage))
include hc hnext

theorem Consistent.issued_afterStep (k : Nat) (u : Url) (n : Nat)
    (hn : ⟨k, u, .numbered n⟩ ∈ (afterStep h i t act session stage).log) :
    n ≤ session.generations.issued := by
  rcases List.mem_append.1 hn with hold | hnew
  · exact Nat.le_trans (hc.issued k u n hold) (Stage.issued_le_next hnext)
  · obtain ⟨-, -, rfl⟩ := Deed.mk.inj (List.mem_singleton.1 hnew)
    rcases Stage.generations_next hnext with ⟨hact, hg⟩ | ⟨hact, -⟩ | ⟨hne, -, -⟩
    · obtain rfl := Act.numbered.inj hact
      rw [hg]
      exact Nat.le_refl _
    · cases hact
    · exact absurd rfl (hne n)

theorem Consistent.outdated_afterStep (k j : Nat) (u : Url) (n : Nat)
    (hpair : [(⟨k, u, .numbered n⟩ : Deed), ⟨j, u, .retired⟩].Sublist
      (afterStep h i t act session stage).log) : session.generations.isCurrent u n = false := by
  rcases pair_sublist_concat.1 hpair with hold | ⟨hnew, -⟩
  · have hcurrent := hc.outdated k j u n hold
    rcases Stage.generations_next hnext with ⟨-, hg⟩ | ⟨-, hg⟩ | ⟨-, -, hg⟩
    · -- a fresh number is no old one
      have hfresh : h.session.generations.next ≠ n := by
        have hle := hc.issued k u n (hold.subset List.mem_cons_self)
        have hlt := h.session.generations.begin_fresh
        omega
      rw [hg, Generations.isCurrent, Generations.start, Table.get_set]
      split
      · simpa using hfresh
      · exact hcurrent
    · rw [hg, Generations.isCurrent, Generations.retire, Table.get_erase]
      split
      · rfl
      · exact hcurrent
    · rw [hg]
      exact hcurrent
  · obtain ⟨-, rfl, rfl⟩ := Deed.mk.inj hnew
    rcases Stage.generations_next hnext with ⟨hact, -⟩ | ⟨-, hg⟩ | ⟨-, hne, -⟩
    · cases hact
    · rw [hg]
      exact Generations.not_isCurrent_retire _ _ _
    · exact absurd rfl hne

variable (ht : h.tasks[i]? = some t)
include ht

theorem Consistent.behind_afterStep (k : Nat) (t' : Task)
    (ht' : (afterStep h i t act session stage).tasks[k]? = some t') (d : Deed)
    (hd : d ∈ (afterStep h i t act session stage).log) (hk : d.task = k) :
    d.url = t'.url ∧ t'.stage.excludes d.act = false := by
  obtain ⟨hact, hkeep⟩ := Stage.excludes_next hnext
  rcases List.mem_append.1 hd with hold | hnew
  · rcases task_afterStep ht' with ⟨rfl, rfl⟩ | ⟨-, ht'⟩
    · obtain ⟨hurl, hexcludes⟩ := hc.behind k t ht d hold hk
      exact ⟨hurl, hkeep _ hexcludes⟩
    · exact hc.behind k t' ht' d hold hk
  · obtain rfl := List.mem_singleton.1 hnew
    rcases task_afterStep ht' with ⟨rfl, rfl⟩ | ⟨hne, -⟩
    · exact ⟨rfl, hact⟩
    · exact absurd hk.symm hne

theorem Consistent.closing_afterStep (k j : Nat) (u : Url) (n : Nat)
    (hpair : [(⟨k, u, .numbered n⟩ : Deed), ⟨j, u, .removed⟩].Sublist
      (afterStep h i t act session stage).log)
    (hretired : ⟨j, u, .retired⟩ ∈ (afterStep h i t act session stage).log) :
    [(⟨k, u, .numbered n⟩ : Deed), ⟨j, u, .retired⟩].Sublist
      (afterStep h i t act session stage).log := by
  rcases pair_sublist_concat.1 hpair with hold | ⟨hnew, hnumbered⟩
  · rcases List.mem_append.1 hretired with hretired | hlast
    · exact (hc.closing k j u n hold hretired).trans (List.sublist_append_left _ _)
    · exact pair_sublist_concat.2
        (.inr ⟨List.mem_singleton.1 hlast, hold.subset List.mem_cons_self⟩)
  · -- who removes now has not retired before
    obtain ⟨rfl, rfl, rfl⟩ := Deed.mk.inj hnew
    have hexcludes : t.stage.excludes .retired = true := by
      rw [(Stage.reading_of_removed hnext).2]
      rfl
    rcases List.mem_append.1 hretired with hretired | hlast
    · exact absurd hretired (hc.not_mem_of_excludes ht hexcludes _)
    · cases List.mem_singleton.1 hlast

theorem Consistent.sending_afterStep (k : Nat) (t' : Task) (e : Effect) (es : List Effect)
    (ht' : (afterStep h i t act session stage).tasks[k]? = some t')
    (hsending : t'.stage = .sending e es) (j n : Nat)
    (hpair : [(⟨k, t'.url, .numbered n⟩ : Deed), ⟨j, t'.url, .removed⟩].Sublist
      (afterStep h i t act session stage).log) :
    JudgedBetween (afterStep h i t act session stage).log t'.url k j := by
  rcases task_afterStep ht' with ⟨rfl, rfl⟩ | ⟨hne, hold⟩
  · obtain rfl : stage = .sending e es := hsending
    rcases Stage.stage_of_sending hnext with
      ⟨generation, effects, hjudging, rfl, hcurrent⟩ | ⟨e', es', hearlier, rfl⟩
    · -- the judgement is the last deed, and no retirement was before it
      rcases pair_sublist_concat.1 hpair with hold | ⟨hnew, -⟩
      · refine ⟨pair_sublist_concat.2
          (.inr ⟨rfl, hold.subset (List.mem_cons_of_mem _ List.mem_cons_self)⟩), fun hlate => ?_⟩
        have hexcludes : t.stage.excludes (.judged true) = true := by
          rw [hjudging]
          rfl
        rcases pair_sublist_concat.1 hlate with hearlier | ⟨-, hretired⟩
        · exact absurd (hearlier.subset (List.mem_cons_of_mem _ List.mem_cons_self))
            (hc.not_mem_of_excludes ht hexcludes _)
        · have hnumber := hc.number_of_judging ht hjudging (hold.subset List.mem_cons_self)
          have houtdated := hc.outdated k j _ n (hc.closing k j _ n hold hretired)
          rw [hnumber, hcurrent] at houtdated
          cases houtdated
      · cases hnew
    · rcases pair_sublist_concat.1 hpair with hold | ⟨hnew, -⟩
      · exact (hc.sending k t e' es' ht hearlier j n hold).concat (by simp)
      · cases hnew
  · rcases pair_sublist_concat.1 hpair with hbefore | ⟨hnew, -⟩
    · exact (hc.sending k t' e es hold hsending j n hbefore).concat fun heq =>
        hne (Deed.mk.inj heq).1.symm
    · -- nothing is removed while this handler reads
      obtain ⟨rfl, -, rfl⟩ := Deed.mk.inj hnew
      have hreads : h.reading = true := by
        rw [reading, List.any_eq_true]
        exact ⟨t', List.mem_of_getElem? hold, by rw [hsending]; rfl⟩
      rw [(Stage.reading_of_removed hnext).1] at hreads
      cases hreads

theorem Consistent.sent_afterStep (k j : Nat) (u : Url) (n : Nat) (e : Effect)
    (htriple : [(⟨k, u, .numbered n⟩ : Deed), ⟨j, u, .removed⟩, ⟨k, u, .sent e⟩].Sublist
      (afterStep h i t act session stage).log) :
    JudgedBetween (afterStep h i t act session stage).log u k j := by
  rcases triple_sublist_concat.1 htriple with hold | ⟨hnew, hpair⟩
  · refine (hc.sent k j u n e hold).concat fun heq => ?_
    -- who is judged now has sent nothing before
    obtain ⟨rfl, rfl, rfl⟩ := Deed.mk.inj heq
    obtain ⟨generation, effects, hjudging⟩ := Stage.stage_of_judged hnext
    have hexcludes : t.stage.excludes (.sent e) = true := by
      rw [hjudging]
      rfl
    exact hc.not_mem_of_excludes ht hexcludes t.url (hold.subset (by simp))
  · obtain ⟨rfl, rfl, rfl⟩ := Deed.mk.inj hnew
    rcases Stage.stage_of_sent hnext with hclearing | ⟨es, hsending⟩
    · have hexcludes : t.stage.excludes (.numbered n) = true := by
        rw [hclearing]
        rfl
      exact absurd (hpair.subset List.mem_cons_self) (hc.not_mem_of_excludes ht hexcludes t.url)
    · exact (hc.sending k t e es ht hsending j n hpair).concat (by simp)

end Step

/-- Every move keeps what the log says. -/
theorem Consistent.step {h after : Handlers} (hc : Consistent h) {m : Move}
    (hstep : h.step m = some after) : Consistent after := by
  rcases step_cases hstep with ⟨u, stage, hstage, rfl⟩ |
    ⟨i, outcome, t, act, session, stage, -, ht, hnext, rfl⟩
  · exact hc.enter hstage
  · refine ⟨fun d hd => ?_, hc.behind_afterStep hnext ht, hc.issued_afterStep hnext,
      hc.outdated_afterStep hnext, hc.closing_afterStep hnext ht,
      hc.sending_afterStep hnext ht, hc.sent_afterStep hnext ht⟩
    rw [afterStep, List.length_set]
    rcases List.mem_append.1 hd with hold | hnew
    · exact hc.task_lt d hold
    · rw [List.mem_singleton.1 hnew]
      exact (List.getElem?_eq_some_iff.1 ht).1

/-! ## The handshake -/

/-- No run that took its number before a closing handler removed the document sends
diagnostics after that handler cleared them. -/
def NothingLate (log : List Deed) : Prop :=
  ∀ u i j n diagnostics version?,
    ¬ [(⟨i, u, .numbered n⟩ : Deed), ⟨j, u, .removed⟩, ⟨j, u, .sent (.publish u [] none)⟩,
      ⟨i, u, .sent (.publish u diagnostics version?)⟩].Sublist log

/-- A retirement leaves the number of a run current that began after the closed document
was opened again. -/
def SparesReopened (h : Handlers) : Prop :=
  ∀ u i j k n text language version outcome after,
    h.tasks[j]? = some ⟨u, .retiring⟩ → h.step (.go j outcome) = some after →
    [(⟨j, u, .removed⟩ : Deed), ⟨k, u, .stored (.opened text language version)⟩,
      ⟨i, u, .numbered n⟩].Sublist h.log →
    h.session.generations.isCurrent u n = true → after.session.generations.isCurrent u n = true

/-- Nothing comes between a removal and its retirement. -/
def Undivided (log : List Deed) : Prop :=
  log.IsChain fun d next => d.act = .removed → next = ⟨d.task, d.url, .retired⟩

instance (log : List Deed) : Decidable (Undivided log) :=
  inferInstanceAs (Decidable (log.IsChain _))

/-- What comes after a removal is its retirement or comes after that. -/
theorem retired_of_undivided {log : List Deed} (h : Undivided log) {u : Url} {j : Nat} {d : Deed}
    (hpair : [⟨j, u, .removed⟩, d].Sublist log) :
    d = ⟨j, u, .retired⟩ ∨ [⟨j, u, .retired⟩, d].Sublist log := by
  obtain ⟨front, back, rfl, hd⟩ := exists_split_of_pair hpair
  cases back with
  | nil => cases hd
  | cons next rest =>
    obtain ⟨-, hnext, -⟩ := List.isChain_append_cons_cons.1 h
    obtain rfl : next = ⟨j, u, .retired⟩ := hnext rfl
    rcases List.mem_cons.1 hd with rfl | hd
    · exact .inl rfl
    · exact .inr (((List.singleton_sublist.2 hd).cons_cons _).trans
        ((List.sublist_cons_self _ _).trans (List.sublist_append_right _ _)))

section Run

variable {settings : Settings} {root home : Option Path} {moves : List Move} {h : Handlers}

/-- What the log says holds after every run. -/
theorem consistent_run (hrun : (justSetUp settings root home).run moves = some h) :
    Consistent h :=
  run_invariant (consistent_justSetUp settings root home)
    (fun _ _ _ hc hstep => hc.step hstep) hrun

/-- A run that sends after its document was removed was found current between that removal
and the retirement that belongs to it. -/
theorem judged_between (hrun : (justSetUp settings root home).run moves = some h)
    {u : Url} {i j n : Nat} {e : Effect}
    (hlate : [(⟨i, u, .numbered n⟩ : Deed), ⟨j, u, .removed⟩, ⟨i, u, .sent e⟩].Sublist h.log) :
    JudgedBetween h.log u i j :=
  (consistent_run hrun).sent i j u n e hlate

end Run

/-- Where each retirement follows its removal at once, no run is too late, and no run of a
later opening is retired, in whatever order all other steps are taken. -/
theorem handshake_of_undivided (settings : Settings) (root home : Option Path)
    (moves : List Move) (h : Handlers)
    (hrun : (justSetUp settings root home).run moves = some h) (hundivided : Undivided h.log) :
    NothingLate h.log ∧ SparesReopened h := by
  constructor
  · intro u i j n diagnostics version? hlate
    have htriple : [(⟨i, u, .numbered n⟩ : Deed), ⟨j, u, .removed⟩,
        ⟨i, u, .sent (.publish u diagnostics version?)⟩].Sublist h.log :=
      List.Sublist.trans (((List.sublist_cons_self _ _).cons_cons _).cons_cons _) hlate
    obtain ⟨hjudged, hnot⟩ := judged_between hrun htriple
    rcases retired_of_undivided hundivided hjudged with heq | hretired
    · cases heq
    · exact hnot hretired
  · intro u i j k n text language version outcome after hj hstep htriple hcurrent
    -- the document was stored after the removal, so the retirement is over
    have hpair : [(⟨j, u, .removed⟩ : Deed), ⟨k, u, .stored (.opened text language version)⟩].Sublist
        h.log := List.Sublist.trans (((List.nil_sublist _).cons_cons _).cons_cons _) htriple
    rcases retired_of_undivided hundivided hpair with heq | hretired
    · cases heq
    · exact absurd (hretired.subset List.mem_cons_self)
        ((consistent_run hrun).not_mem_of_excludes hj rfl u)

/-- Two runs are under way when the document is closed, and a third one when its diagnostics
are cleared. -/
theorem handshake_of_undivided_reopened :
    let u : Url := ⟨"file", some ⟨[], [], []⟩, "/a.fish", none, none⟩
    let ended : Outcome := .ok ⟨127, [], "/a.fish (line 1): Missing end\n"⟩
    let moves : List Move :=
      [.edit u (.opened "if\n" "fish" 1), .go 0 ended, .go 0 ended, .go 0 ended,
        .edit u (.saved none), .go 1 ended, .go 1 ended, .go 1 ended,
        .go 0 ended, .go 0 ended, .go 0 ended,
        .close u, .edit u (.opened "if\n" "fish" 2), .go 2 ended, .go 2 ended,
        .go 3 ended, .go 3 ended, .go 3 ended, .go 1 ended, .go 1 ended, .go 1 ended,
        .go 2 ended, .go 3 ended, .go 3 ended, .go 3 ended, .go 3 ended]
    ∃ h, (justSetUp {} none none).run moves = some h ∧ Undivided h.log ∧
      h.sent = [.publish u [] none,
        .publish u [Diagnostic.ofComplaint ⟨"/a.fish", 1, "Missing end"⟩ ⟨"if\n"⟩] (some 2)] ∧
      NothingLate h.log ∧ SparesReopened h := by
  intro u ended moves
  have hfacts : ((justSetUp {} none none).run moves).any (fun h =>
      decide (Undivided h.log ∧ h.sent = [.publish u [] none,
        .publish u [Diagnostic.ofComplaint ⟨"/a.fish", 1, "Missing end"⟩ ⟨"if\n"⟩] (some 2)])) =
      true := by
    decide +kernel
  obtain ⟨h, hrun, hh⟩ := (Option.any_eq_true _ _).1 hfacts
  obtain ⟨hundivided, hsent⟩ := of_decide_eq_true hh
  exact ⟨h, hrun, hundivided, hsent, handshake_of_undivided {} none none moves h hrun hundivided⟩

/-- In general a run can be too late, and a run of a later opening can be retired: a run may
be judged, and a document be opened and linted again, before a close has retired. -/
theorem handshake_divided :
    (¬ ∀ settings root home moves h, (justSetUp settings root home).run moves = some h →
      NothingLate h.log) ∧
    ¬ ∀ settings root home moves h, (justSetUp settings root home).run moves = some h →
      SparesReopened h := by
  let u : Url := ⟨"file", some ⟨[], [], []⟩, "/a.fish", none, none⟩
  let ended : Outcome := .ok ⟨127, [], "/a.fish (line 1): Missing end\n"⟩
  constructor
  · intro hall
    have hfacts : ((justSetUp {} none none).run
        [.edit u (.opened "if\n" "fish" 1), .go 0 ended, .go 0 ended, .go 0 ended, .go 0 ended,
          .close u, .go 1 ended, .go 0 ended, .go 0 ended, .go 1 ended, .go 1 ended,
          .go 0 ended]).any (fun h =>
        decide ([(⟨0, u, .numbered 1⟩ : Deed), ⟨1, u, .removed⟩, ⟨1, u, .sent (.publish u [] none)⟩,
          ⟨0, u, .sent (.publish u
            [Diagnostic.ofComplaint ⟨"/a.fish", 1, "Missing end"⟩ ⟨"if\n"⟩] (some 1))⟩].Sublist
          h.log)) = true := by
      decide +kernel
    obtain ⟨h, hrun, hlate⟩ := (Option.any_eq_true _ _).1 hfacts
    exact hall {} none none _ h hrun _ _ _ _ _ _ (of_decide_eq_true hlate)
  · intro hall
    have hfacts : ((justSetUp {} none none).run
        [.edit u (.opened "if\n" "fish" 1), .go 0 ended, .go 0 ended, .go 0 ended,
          .close u, .go 1 ended, .edit u (.opened "if\n" "fish" 2), .go 2 ended, .go 2 ended,
          .go 2 ended]).any (fun h =>
        (h.step (.go 1 ended)).any fun after =>
        decide (h.tasks[1]? = some ⟨u, .retiring⟩ ∧
          [(⟨1, u, .removed⟩ : Deed), ⟨2, u, .stored (.opened "if\n" "fish" 2)⟩,
            ⟨2, u, .numbered 2⟩].Sublist h.log ∧
          h.session.generations.isCurrent u 2 = true ∧
          after.session.generations.isCurrent u 2 = false)) = true := by
      decide +kernel
    obtain ⟨h, hrun, hh⟩ := (Option.any_eq_true _ _).1 hfacts
    obtain ⟨after, hstep, hafter⟩ := (Option.any_eq_true _ _).1 hh
    obtain ⟨htask, htriple, hcurrent, hretired⟩ := of_decide_eq_true hafter
    have hspared := hall {} none none _ h hrun _ _ _ _ _ _ _ _ _ _ htask hstep htriple hcurrent
    rw [hretired] at hspared
    cases hspared

end Handlers

end FishCheck
