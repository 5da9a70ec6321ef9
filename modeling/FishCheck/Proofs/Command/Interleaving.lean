import FishCheck.Command.Batch
import FishCheck.Proofs.Command.StandardInput

/-!
# Formatting files is one of its interleavings

The command formats files a few at a time, each group step by step in the order of the
files.  This is one of the orders in which the work on the files can go, so what holds of
every order holds of the command.

Main results:

- Theorem `verdict_eq_changed_iff`: the accounts on which a file changes.
- Theorem `formats_formatAll`: the command takes the files of a batch to their end.
-/

namespace FishCheck

namespace Formatting

/-! ## Accounts -/

/-- The text that was read is the whole input of the formatter. -/
theorem invocation_eq_wholeRun (s : Settings) (h : Host) (text : Text) :
    Format.invocation s (Command.directoryOf h) ⟨text⟩ (Document.fullRange ⟨text⟩) =
      wholeRun s h text := by
  simp only [Format.invocation, Document.slice_fullRange, wholeRun]

/-- A formatter that succeeds gives its output as the new text. -/
theorem newText_of_success {text : Text} {o : Output} (ho : o.exitCode = 0) :
    newText? text (.ok o) = .ok (some (Utf8.lenient o.stdout)) := by
  have hdecoded : o.decode.exitCode = 0 := ho
  simp only [newText?, Except.map, Format.conclude_ok _ _ hdecoded]
  rfl

/-- A formatter gives a new text only if it succeeds. -/
theorem newText_eq_some_iff {text new : Text} {result : Except Failure Output} :
    newText? text result = .ok (some new) ↔
      ∃ o, result = .ok o ∧ o.exitCode = 0 ∧ Utf8.lenient o.stdout = new := by
  constructor
  · intro h
    cases result with
    | error f => cases f <;> cases h
    | ok o =>
      by_cases ho : o.exitCode = 0
      · rw [newText_of_success ho] at h
        cases h
        exact ⟨o, rfl, ho, rfl⟩
      · have hdecoded : o.decode.exitCode ≠ 0 := ho
        simp [newText?, Except.map, Format.conclude_rejected _ _ hdecoded] at h
  · rintro ⟨o, rfl, ho, rfl⟩
    exact newText_of_success ho

/-- A file changes exactly if the formatter succeeded on its text with another one. -/
theorem verdict_eq_changed_iff {account : Account} {new : Text} :
    account.verdict = .changed new ↔
      ∃ text o, account = .answered text (.ok o) ∧ o.exitCode = 0 ∧
        Utf8.lenient o.stdout = new ∧ new ≠ text := by
  cases account with
  | unreadable message => simp [Account.verdict]
  | answered text result =>
    simp only [Account.verdict, Account.answered.injEq]
    constructor
    · intro h
      unfold judge at h
      split at h
      · rename_i formatted hnew
        obtain ⟨o, rfl, ho, rfl⟩ := newText_eq_some_iff.1 hnew
        split at h
        · cases h
        · rename_i hne
          cases h
          exact ⟨text, o, ⟨rfl, rfl⟩, ho, rfl, hne⟩
      · cases h
      · cases h
    · rintro ⟨_, o, ⟨rfl, rfl⟩, ho, rfl, hne⟩
      simp [newText_of_success ho, judge, hne]

/-! ## Runs of a batch -/

/-- Some order of moves takes one batch to another. -/
def Leads (exec : Executor) (s : Settings) (check : Bool) (b b' : Batch) : Prop :=
  ∃ order, b.run exec s check order = some b'

section Leads

variable {exec : Executor} {s : Settings} {check : Bool} {h after : Host}

theorem Leads.refl (b : Batch) : Leads exec s check b b := ⟨[], rfl⟩

theorem Leads.trans {a b c : Batch} (hab : Leads exec s check a b)
    (hbc : Leads exec s check b c) : Leads exec s check a c := by
  obtain ⟨order, hab⟩ := hab
  obtain ⟨more, hbc⟩ := hbc
  exact ⟨order ++ more, by rw [Batch.run_append, hab, Option.bind_some, hbc]⟩

/-- A step of a file is a move of the batch that it is in. -/
theorem leads_of_next (before later : List Job) {job : Job} {stage : Stage}
    (hnext : job.stage.next? exec s check h job.path = some (after, stage)) :
    Leads exec s check ⟨h, before ++ job :: later⟩
      ⟨after, before ++ ⟨job.path, stage⟩ :: later⟩ :=
  ⟨[before.length], by rw [Batch.run, Batch.step_of_next hnext]; rfl⟩

end Leads

/-! ## The three phases -/

section Phases

variable (exec : Executor) (s : Settings) (check : Bool) (h : Host)

/-- A file that was read. -/
def Job.read (path : Path) : Except Text Text → Job
  | .ok text => ⟨path, .loaded text⟩
  | .error message => ⟨path, .known (.unreadable message)⟩

/-- Files can be read one after the other. -/
theorem leads_read (paths : List Path) (before later : List Job) :
    Leads exec s check ⟨h, before ++ paths.map Job.ofPath ++ later⟩
      ⟨h, before ++ (paths.map fun path => Job.read path (Command.readText h path)) ++ later⟩ := by
  induction paths generalizing before with
  | nil => exact Leads.refl _
  | cons path paths ih =>
    have hnext : (Job.ofPath path).stage.next? exec s check h (Job.ofPath path).path =
        some (h, (Job.read path (Command.readText h path)).stage) := by
      cases hread : Command.readText h path <;>
        simp [Stage.next?, hread, Job.read, Job.ofPath]
    have hjob : Job.mk (Job.ofPath path).path (Job.read path (Command.readText h path)).stage =
        Job.read path (Command.readText h path) := by
      cases Command.readText h path <;> rfl
    have hfirst := leads_of_next before (paths.map Job.ofPath ++ later) hnext
    rw [hjob] at hfirst
    have hrest := ih (before ++ [Job.read path (Command.readText h path)])
    simpa using hfirst.trans (by simpa using hrest)

/-- The formatter can run on texts one after the other. -/
theorem leads_examineAll (texts : List (Path × Except Text Text)) (before later : List Job) :
    ∃ accounts : List (Path × Account),
      Leads exec s check ⟨h, before ++ (texts.map fun t => Job.read t.1 t.2) ++ later⟩
        ⟨(examineAll exec s h texts).1,
          before ++ (accounts.map fun a => ⟨a.1, .known a.2⟩) ++ later⟩ ∧
      (examineAll exec s h texts).2 = accounts.map fun a => (a.1, a.2.verdict) := by
  induction texts generalizing before h with
  | nil => exact ⟨[], Leads.refl _, rfl⟩
  | cons t texts ih =>
    obtain ⟨path, text?⟩ := t
    have hfirst : ∃ account : Account,
        Leads exec s check ⟨h, before ++ Job.read path text? :: ((texts.map fun t =>
            Job.read t.1 t.2) ++ later)⟩
          ⟨(examine exec s h text?).1, before ++ ⟨path, .known account⟩ :: ((texts.map fun t =>
            Job.read t.1 t.2) ++ later)⟩ ∧
        (examine exec s h text?).2 = account.verdict := by
      cases text? with
      | error message => exact ⟨.unreadable message, Leads.refl _, rfl⟩
      | ok text => exact ⟨_, leads_of_next _ _ rfl, rfl⟩
    obtain ⟨account, hleads, hverdict⟩ := hfirst
    obtain ⟨accounts, hrest, hverdicts⟩ :=
      ih (examine exec s h text?).1 (before ++ [⟨path, .known account⟩])
    refine ⟨(path, account) :: accounts, ?_, by simp [examineAll, hverdict, hverdicts]⟩
    simpa [examineAll] using hleads.trans (by simpa using hrest)

/-- The new texts can be written one after the other. -/
theorem leads_installAll (accounts : List (Path × Account)) (before later : List Job) :
    ∃ done : List Job, (∀ job ∈ done, ∃ account verdict, job.stage = .settled account verdict) ∧
      Leads exec s check ⟨h, before ++ (accounts.map fun a => ⟨a.1, .known a.2⟩) ++ later⟩
        ⟨(installAll check h (accounts.map fun a => (a.1, a.2.verdict))).1,
          before ++ done ++ later⟩ ∧
      done.filterMap Job.result? =
        (installAll check h (accounts.map fun a => (a.1, a.2.verdict))).2 := by
  induction accounts generalizing before h with
  | nil => exact ⟨[], by simp, Leads.refl _, rfl⟩
  | cons a accounts ih =>
    obtain ⟨path, account⟩ := a
    obtain ⟨host, verdict, hinstall⟩ : ∃ host verdict,
        install check h path account.verdict = (host, verdict) := ⟨_, _, rfl⟩
    let job : Job := ⟨path, .known account⟩
    have hnext : job.stage.next? exec s check h job.path =
        some (host, .settled account verdict) := by
      simp only [job, Stage.next?, hinstall]
    have hfirst :=
      leads_of_next before ((accounts.map fun a => ⟨a.1, .known a.2⟩) ++ later) hnext
    obtain ⟨done, hdone, hrest, hresults⟩ :=
      ih host (before ++ [⟨path, .settled account verdict⟩])
    refine ⟨⟨path, .settled account verdict⟩ :: done, by simpa using hdone, ?_, ?_⟩
    · simpa [installAll, hinstall] using hfirst.trans (by simpa using hrest)
    · simp [installAll, hinstall, Job.result?, hresults]

/-- Files that are formatted together go through the three phases. -/
theorem leads_formatTogether (paths : List Path) (before later : List Job) :
    ∃ done : List Job, (∀ job ∈ done, ∃ account verdict, job.stage = .settled account verdict) ∧
      Leads exec s check ⟨h, before ++ paths.map Job.ofPath ++ later⟩
        ⟨(formatTogether exec s check h paths).1, before ++ done ++ later⟩ ∧
      done.filterMap Job.result? = (formatTogether exec s check h paths).2 := by
  have hread := leads_read exec s check h paths before later
  let texts := paths.map fun path => (path, Command.readText h path)
  have htexts : texts.map (fun t => Job.read t.1 t.2) =
      paths.map fun path => Job.read path (Command.readText h path) := by
    rw [List.map_map]
    rfl
  obtain ⟨accounts, hexamine, hverdicts⟩ :=
    leads_examineAll exec s check h texts before later
  obtain ⟨done, hdone, hinstall, hresults⟩ :=
    leads_installAll exec s check (examineAll exec s h texts).1 accounts before later
  rw [← hverdicts] at hinstall hresults
  rw [htexts] at hexamine
  exact ⟨done, hdone, hread.trans (hexamine.trans hinstall), hresults⟩

/-- The files that are formatted group by group are all done in the end. -/
theorem leads_formatAll (width : Nat) (paths : List Path) (before : List Job) :
    ∃ done : List Job, (∀ job ∈ done, ∃ account verdict, job.stage = .settled account verdict) ∧
      Leads exec s check ⟨h, before ++ paths.map Job.ofPath⟩
        ⟨(formatAll exec s check width h paths).1, before ++ done⟩ ∧
      done.filterMap Job.result? = (formatAll exec s check width h paths).2 := by
  induction h, paths using formatAll.induct exec s check width generalizing before with
  | case1 h => exact ⟨[], by simp, by simpa [formatAll] using Leads.refl _, by simp [formatAll]⟩
  | case2 h path paths host results htogether after more hmore ih =>
    obtain ⟨first, hfirst, hleads, hresults⟩ :=
      leads_formatTogether exec s check h (path :: paths.take (width - 1)) before
        ((paths.drop (width - 1)).map Job.ofPath)
    obtain ⟨rest, hrest, hleads', hresults'⟩ := ih (before ++ first)
    rw [htogether] at hleads hresults
    have hjobs : before ++ (path :: paths.take (width - 1)).map Job.ofPath ++
        (paths.drop (width - 1)).map Job.ofPath = before ++ (path :: paths).map Job.ofPath := by
      rw [List.append_assoc, ← List.map_append, List.cons_append, List.take_append_drop]
    rw [hjobs] at hleads
    refine ⟨first ++ rest, ?_, ?_, ?_⟩
    · intro job hjob
      rcases List.mem_append.1 hjob with hjob | hjob
      · exact hfirst job hjob
      · exact hrest job hjob
    · rw [formatAll, htogether]
      simpa using hleads.trans hleads'
    · rw [formatAll, htogether, List.filterMap_append, hresults, hresults']

end Phases

/-- The command takes the files of a batch to their end. -/
theorem formats_formatAll (exec : Executor) (s : Settings) (check : Bool) (width : Nat) (h : Host)
    (paths : List Path) :
    ∃ b, Formats exec s check h paths b ∧
      formatAll exec s check width h paths = (b.host, b.results) := by
  obtain ⟨done, hdone, ⟨order, hrun⟩, hresults⟩ :=
    leads_formatAll exec s check h width paths []
  exact ⟨_, ⟨⟨order, hrun⟩, hdone⟩, Prod.ext rfl hresults.symm⟩

end Formatting

end FishCheck
