import FishCheck.Command.Formatting

/-!
# Files at work

Formatting a file takes three steps: its text is read, the formatter runs on the text, and
the new text is written.  Several files are at work together, and the steps of different
files come in any order.  A batch is a host and the files at work on it; one move takes one
of them a step further.  Whatever limits how many files are at work at once only rules out
some of the orders, so the limit is left out here.

Main results:

- Theorem `Batch.step_cases`: a move takes one file a step further and leaves the others.
- Theorem `Stage.next_cases`: the three steps of a file.
- Theorem `Batch.run_invariant`: what every move keeps holds after every run.
-/

namespace FishCheck

namespace Formatting

/-! ## One file -/

/-- What is known of a file when it is time to write it: that it has no text, or its text
and how the formatter ended on it. -/
inductive Account
  | unreadable (message : Text)
  | answered (text : Text) (result : Except Failure Output)

/-- The new text that the end of a formatter run gives, none when it rejects the text. -/
def newText? (text : Text) (result : Except Failure Output) : Except Failure (Option Text) :=
  (Format.conclude (Document.fullRange ⟨text⟩) (result.map Output.decode)).map fun e? =>
    e?.map (·.newText)

/-- What an account means for the file. -/
def Account.verdict : Account → Verdict
  | unreadable message => .failed message
  | answered text result => judge text (newText? text result)

/-- How far the work on a file has come. -/
inductive Stage
  | listed
  | loaded (text : Text)
  | known (account : Account)
  | settled (account : Account) (verdict : Verdict)

/-- A file at work. -/
structure Job where
  path : Path
  stage : Stage

/-- A file before the work on it begins. -/
def Job.ofPath (path : Path) : Job := ⟨path, .listed⟩

/-- The next step of the work on a file: the host after it and the next stage. -/
def Stage.next? (exec : Executor) (s : Settings) (check : Bool) (h : Host) (path : Path) :
    Stage → Option (Host × Stage)
  | listed =>
    match Command.readText h path with
    | .ok text => some (h, loaded text)
    | .error message => some (h, known (.unreadable message))
  | loaded text =>
    let d : Document := ⟨text⟩
    let (after, result) := exec h (Format.invocation s (Command.directoryOf h) d d.fullRange)
    some (after, known (.answered text result))
  | known account =>
    let (after, verdict) := install check h path account.verdict
    some (after, settled account verdict)
  | settled .. => none

/-- The path of a file and what became of it, when the work on it is over. -/
def Job.result? (job : Job) : Option (Path × Verdict) :=
  match job.stage with
  | .settled _ verdict => some (job.path, verdict)
  | _ => none

/-! ## Several files -/

/-- A host and the files at work on it. -/
structure Batch where
  host : Host
  jobs : List Job

namespace Batch

/-- The work on some files before it begins. -/
def start (h : Host) (paths : List Path) : Batch := ⟨h, paths.map Job.ofPath⟩

/-- Takes the file at a place one step further, if there is a step left. -/
def step (exec : Executor) (s : Settings) (check : Bool) (b : Batch) (i : Nat) : Option Batch :=
  b.jobs[i]?.bind fun job =>
    (job.stage.next? exec s check b.host job.path).map fun (h, stage) =>
      ⟨h, b.jobs.set i ⟨job.path, stage⟩⟩

/-- Takes files further in a given order. -/
def run (exec : Executor) (s : Settings) (check : Bool) (b : Batch) : List Nat → Option Batch
  | [] => some b
  | i :: is => (b.step exec s check i).bind fun b => b.run exec s check is

/-- The results of the files that are done, in the order of the files. -/
def results (b : Batch) : List (Path × Verdict) := b.jobs.filterMap Job.result?

/-- The work on every file is over. -/
def Finished (b : Batch) : Prop :=
  ∀ job ∈ b.jobs, ∃ account verdict, job.stage = .settled account verdict

end Batch

/-- One of the ways in which the work on some files can go, from its beginning to its end. -/
def Formats (exec : Executor) (s : Settings) (check : Bool) (h : Host) (paths : List Path)
    (b : Batch) : Prop :=
  (∃ order, (Batch.start h paths).run exec s check order = some b) ∧ b.Finished

/-! ## First facts -/

section Steps

variable {exec : Executor} {s : Settings} {check : Bool} {h after : Host} {path : Path}
  {b b' : Batch}

/-- The three steps of a file. -/
theorem Stage.next_cases {stage next : Stage}
    (hnext : stage.next? exec s check h path = some (after, next)) :
    (∃ text, stage = listed ∧ Command.readText h path = .ok text ∧ after = h ∧
      next = loaded text) ∨
    (∃ message, stage = listed ∧ Command.readText h path = .error message ∧ after = h ∧
      next = known (.unreadable message)) ∨
    (∃ text, stage = loaded text ∧
      let d : Document := ⟨text⟩
      let ended := exec h (Format.invocation s (Command.directoryOf h) d d.fullRange)
      after = ended.1 ∧ next = known (.answered text ended.2)) ∨
    (∃ account, stage = known account ∧
      after = (install check h path account.verdict).1 ∧
      next = settled account (install check h path account.verdict).2) := by
  cases stage with
  | listed =>
    simp only [next?] at hnext
    split at hnext
    · rename_i text hread
      cases hnext
      exact .inl ⟨text, rfl, hread, rfl, rfl⟩
    · rename_i message hread
      cases hnext
      exact .inr (.inl ⟨message, rfl, hread, rfl, rfl⟩)
  | loaded text =>
    cases hnext
    exact .inr (.inr (.inl ⟨text, rfl, rfl, rfl⟩))
  | known account =>
    cases hnext
    exact .inr (.inr (.inr ⟨account, rfl, rfl, rfl⟩))
  | settled account verdict => cases hnext

namespace Batch

/-- A move takes one file a step further and leaves the others. -/
theorem step_cases {i : Nat} (hstep : b.step exec s check i = some b') :
    ∃ before job later stage, b.jobs = before ++ job :: later ∧
      job.stage.next? exec s check b.host job.path = some (b'.host, stage) ∧
      b'.jobs = before ++ ⟨job.path, stage⟩ :: later := by
  obtain ⟨job, hjob, hmoved⟩ := Option.bind_eq_some_iff.1 hstep
  obtain ⟨⟨after, stage⟩, hnext, rfl⟩ := Option.map_eq_some_iff.1 hmoved
  obtain ⟨hi, rfl⟩ := List.getElem?_eq_some_iff.1 hjob
  refine ⟨b.jobs.take i, b.jobs[i], b.jobs.drop (i + 1), stage, ?_, hnext, ?_⟩
  · rw [List.getElem_cons_drop, List.take_append_drop]
  · change b.jobs.set i ⟨b.jobs[i].path, stage⟩ = _
    rw [List.set_eq_take_append_cons_drop, if_pos hi]

/-- A move takes the file at its place a step further and leaves the other places. -/
theorem step_at {i : Nat} (hstep : b.step exec s check i = some b') :
    (∃ job stage, b.jobs[i]? = some job ∧
      job.stage.next? exec s check b.host job.path = some (b'.host, stage) ∧
      b'.jobs[i]? = some ⟨job.path, stage⟩) ∧
    ∀ j, j ≠ i → b'.jobs[j]? = b.jobs[j]? := by
  obtain ⟨job, hjob, hmoved⟩ := Option.bind_eq_some_iff.1 hstep
  obtain ⟨⟨after, stage⟩, hnext, rfl⟩ := Option.map_eq_some_iff.1 hmoved
  obtain ⟨hi, -⟩ := List.getElem?_eq_some_iff.1 hjob
  refine ⟨⟨job, stage, hjob, hnext, by simp [hi]⟩, fun j hj => ?_⟩
  exact List.getElem?_set_ne (Ne.symm hj)

/-- The file behind some others can be taken further. -/
theorem step_of_next {before later : List Job} {job : Job} {stage : Stage}
    (hnext : job.stage.next? exec s check h job.path = some (after, stage)) :
    step exec s check ⟨h, before ++ job :: later⟩ before.length =
      some ⟨after, before ++ ⟨job.path, stage⟩ :: later⟩ := by
  simp [step, hnext]

/-- What every move keeps holds after every run. -/
theorem run_invariant {P : Batch → Prop} (hstart : P b)
    (hkeep : ∀ before i after, P before → before.step exec s check i = some after → P after)
    {order : List Nat} (hrun : b.run exec s check order = some b') : P b' := by
  induction order generalizing b with
  | nil =>
    obtain rfl := Option.some.inj hrun
    exact hstart
  | cons i is ih =>
    obtain ⟨next, hnext, hrest⟩ := Option.bind_eq_some_iff.1 hrun
    exact ih (hkeep b i next hstart hnext) hrest

theorem run_append (order more : List Nat) :
    b.run exec s check (order ++ more) =
      (b.run exec s check order).bind fun b => b.run exec s check more := by
  induction order generalizing b with
  | nil => rfl
  | cons i is ih => simp [run, ih, Option.bind_assoc]

end Batch

end Steps

end Formatting

end FishCheck
