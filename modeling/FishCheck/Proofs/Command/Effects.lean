import FishCheck.Proofs.Command.Interleaving
import FishCheck.Proofs.Host.Shape

/-!
# What formatting does to the files

The work on a batch of files changes contents and nothing else: a file holds what it held
before, or the new text that the work on a path to it ended with.  If the paths lead to
different files, each file is read as it was at the beginning, whatever happens to the
others meanwhile, and its content in the end is a matter of its own work.  The formatter is
taken to write no file itself.

Main results:

- Theorem `Sound.afterStep`: each move keeps what is known of files and contents.
- Theorem `sound_of_formats`: this holds of all files when the work on them is over.
- Theorem `Faithful.afterStep`: if the files are different, each move keeps them apart.
- Theorem `faithful_of_formats`: different files are all read and written as if alone.
-/

namespace FishCheck

/-- A file with a new content, if there is one for it; other nodes stay as they are. -/
def Node.refill (new : Option Text) : Node → Node
  | .file content executable => .file ((new.map Utf8.encode).getD content) executable
  | n => n

@[simp]
theorem Node.refill_none : Node.refill none = id := by
  funext n
  cases n <;> rfl

/-- In trees of one shape there are files at the same places, with the same modes. -/
theorem Tree.file_of_shape {t t' : Tree} {l : Location} {content : Bytes} {executable : Bool}
    (hshape : t'.shape = t.shape) (hnode : t'.node? l = some (.file content executable)) :
    ∃ old, t.node? l = some (.file old executable) := by
  have hforgotten : (t.node? l).map Node.shape = some (.file [] executable) := by
    rw [← node_shape, ← hshape, node_shape, hnode, Option.map_some, Node.shape]
  obtain ⟨n, hn, hform⟩ := Option.map_eq_some_iff.1 hforgotten
  cases n with
  | file old executable' =>
    cases hform
    exact ⟨old, hn⟩
  | _ => cases hform

namespace Command

/-- A file that has a text is there: what a program of the system holds is no text. -/
theorem fileAt_of_readText {h : Host} {path : Path} {text : Text}
    (hfile : h.tree.isFile h.cwd path = true) (hread : readText h path = .ok text) :
    ∃ l, h.tree.fileAt? h.cwd path = some l := by
  unfold Tree.isFile at hfile
  split at hfile
  · rename_i l content executable hfind
    exact ⟨l, Tree.fileAt_eq_some_iff.2 ⟨content, executable, hfind⟩⟩
  · rename_i l name hfind
    have hcode : Utf8.strict? Tree.machineCode = none := by decide +kernel
    have hbytes : h.tree.read h.cwd path = .ok Tree.machineCode := by simp only [Tree.read, hfind]
    simp only [readText, Host.view, FileView.readText, Tree.view, hbytes, Except.mapError,
      Except.bind, hcode] at hread
    cases hread
  · cases hfile

/-- Hosts whose trees have one shape read the same text at a path if they have the same file
there. -/
theorem readText_eq_of_shape {h : Host} {t : Tree} {path : Path} (hshape : t.shape = h.tree.shape)
    (hnode : ∀ l, h.tree.fileAt? h.cwd path = some l → t.node? l = h.tree.node? l) :
    readText { h with tree := t } path = readText h path := by
  simp only [readText, Host.view, FileView.readText, Tree.view,
    Tree.read_eq_of_shape hshape hnode]

end Command

namespace Formatting

/-! ## What a stage says -/

/-- What was read, on an account. -/
def Account.input : Account → Except Text Text
  | unreadable message => .error message
  | answered text _ => .ok text

/-- What was read, once something was. -/
def Stage.input? : Stage → Option (Except Text Text)
  | listed => none
  | loaded text => some (.ok text)
  | known account | settled account _ => some account.input

/-- The account, once there is one. -/
def Stage.account? : Stage → Option Account
  | known account | settled account _ => some account
  | _ => none

/-- The text to write on a verdict. -/
def Verdict.written? (check : Bool) : Verdict → Option Text
  | changed text => if check then none else some text
  | _ => none

/-- The text that was written, if one was. -/
def Stage.written? (check : Bool) : Stage → Option Text
  | settled _ verdict => verdict.written? check
  | _ => none

theorem Verdict.written_eq_some_iff {check : Bool} {verdict : Verdict} {text : Text} :
    verdict.written? check = some text ↔ check = false ∧ verdict = .changed text := by
  cases verdict <;> cases check <;> simp [written?]

/-- A check writes nothing. -/
theorem Stage.written_check (stage : Stage) : stage.written? true = none := by
  cases stage with
  | settled account verdict => cases verdict <;> rfl
  | _ => rfl

/-! ## Assumptions -/

/-- One of the paths leads to the file at a location. -/
def Selects (h : Host) (paths : List Path) (l : Location) : Prop :=
  ∃ path ∈ paths, h.tree.fileAt? h.cwd path = some l

/-- A tree that differs from that of a host at most in the contents of the files that paths
lead to. -/
structure Variant (h : Host) (paths : List Path) (t : Tree) : Prop where
  shape : t.shape = h.tree.shape
  rest : ∀ l, ¬ Selects h paths l → t.node? l = h.tree.node? l

/-- The formatter writes no file itself. -/
def Keeps (exec : Executor) (s : Settings) (h : Host) (paths : List Path) : Prop :=
  ∀ t text, Variant h paths t →
    (exec { h with tree := t } (wholeRun s h text)).1 = { h with tree := t }

/-- All paths lead to files. -/
def AreFiles (h : Host) (paths : List Path) : Prop :=
  ∀ path ∈ paths, h.tree.isFile h.cwd path = true

/-- The paths lead to different files. -/
def AreDistinct (h : Host) (paths : List Path) : Prop :=
  paths.Pairwise fun p q =>
    ∀ l, h.tree.fileAt? h.cwd p = some l → h.tree.fileAt? h.cwd q ≠ some l

/-- A path at which a text was read leads to a file. -/
theorem Variant.exists_fileAt {h : Host} {paths : List Path} {t : Tree} {path : Path} {text : Text}
    (ht : Variant h paths t) (hfiles : AreFiles h paths) (hpath : path ∈ paths)
    (hread : Command.readText { h with tree := t } path = .ok text) :
    ∃ l, h.tree.fileAt? h.cwd path = some l := by
  have hfile : t.isFile h.cwd path = true :=
    (Tree.isFile_eq_of_shape ht.shape).trans (hfiles path hpath)
  obtain ⟨l, hl⟩ := Command.fileAt_of_readText hfile hread
  exact ⟨l, (Tree.fileAt_eq_of_shape ht.shape).symm.trans hl⟩

/-! ## Writing -/

/-- On a verdict without a text to write nothing happens. -/
theorem install_of_written_none {check : Bool} {verdict : Verdict} (h : Host) (path : Path)
    (hwritten : verdict.written? check = none) :
    install check h path verdict = (h, verdict) := by
  cases verdict with
  | changed text =>
    cases check with
    | true => rfl
    | false => cases hwritten
  | _ => rfl

/-- A text to write becomes the content of the file that the path leads to. -/
theorem install_of_written_some {check : Bool} {verdict : Verdict} {h : Host} {path : Path}
    {text : Text} {l : Location} (hwritten : verdict.written? check = some text)
    (hat : h.tree.fileAt? h.cwd path = some l) :
    ∃ old executable, h.tree.node? l = some (.file old executable) ∧
      install check h path verdict =
        ({ h with tree := h.tree.put l (.file (Utf8.encode text) executable) }, verdict) := by
  obtain ⟨rfl, rfl⟩ := Verdict.written_eq_some_iff.1 hwritten
  obtain ⟨old, executable, hnode, hwrite⟩ := Tree.write_of_fileAt hat (Utf8.encode text)
  exact ⟨old, executable, hnode, by simp [install, hwrite]⟩

/-! ## Files and contents -/

section Sound

variable (exec : Executor) (s : Settings) (check : Bool) (h : Host) (paths : List Path)

/-- What the stage of a file says is true. -/
structure Grounded (job : Job) : Prop where
  /-- A known text was read at the path. -/
  read : ∀ text, job.stage.input? = some (.ok text) →
    ∃ t, Variant h paths t ∧ Command.readText { h with tree := t } job.path = .ok text
  /-- The formatter answered what it is said to have answered. -/
  ran : ∀ text result, job.stage.account? = some (.answered text result) →
    ∃ t, Variant h paths t ∧ result = (exec { h with tree := t } (wholeRun s h text)).2
  /-- The verdict is that of the account. -/
  ended : ∀ account verdict, job.stage = .settled account verdict → verdict = account.verdict

/-- The node at a location holds what the work on one of the files ended with. -/
def Rewritten (jobs : List Job) (l : Location) (n? : Option Node) : Prop :=
  ∃ job ∈ jobs, ∃ text, h.tree.fileAt? h.cwd job.path = some l ∧
    job.stage.written? check = some text ∧ n? = (h.tree.node? l).map (Node.refill (some text))

/-- What holds of files and contents at any time of the work on a batch. -/
structure Sound (b : Batch) : Prop where
  host : b.host = { h with tree := b.host.tree }
  order : b.jobs.map Job.path = paths
  shape : b.host.tree.shape = h.tree.shape
  jobs : ∀ job ∈ b.jobs, Grounded exec s h paths job
  nodes : ∀ l, b.host.tree.node? l = h.tree.node? l ∨
    Rewritten check h b.jobs l (b.host.tree.node? l)
  still : (∀ job ∈ b.jobs, job.stage.written? check = none) → b.host.tree = h.tree

end Sound

section Moves

variable {exec : Executor} {s : Settings} {check : Bool} {h : Host} {paths : List Path}
  {before later : List Job} {job : Job} {stage : Stage}

theorem Grounded.listed (path : Path) : Grounded exec s h paths ⟨path, .listed⟩ where
  read _ hinput := by cases hinput
  ran _ _ haccount := by cases haccount
  ended _ _ hstage := by cases hstage

theorem Grounded.loaded {t : Tree} {path : Path} {text : Text} (ht : Variant h paths t)
    (hread : Command.readText { h with tree := t } path = .ok text) :
    Grounded exec s h paths ⟨path, .loaded text⟩ where
  read _ hinput := by
    cases hinput
    exact ⟨t, ht, hread⟩
  ran _ _ haccount := by cases haccount
  ended _ _ hstage := by cases hstage

theorem Grounded.unreadable (path : Path) (message : Text) :
    Grounded exec s h paths ⟨path, .known (.unreadable message)⟩ where
  read _ hinput := by cases hinput
  ran _ _ haccount := by cases haccount
  ended _ _ hstage := by cases hstage

/-- A text at hand stays grounded when the formatter answers it. -/
theorem Grounded.answered {t : Tree} {path : Path} {text : Text}
    (hjob : Grounded exec s h paths ⟨path, .loaded text⟩) (ht : Variant h paths t) :
    Grounded exec s h paths
      ⟨path, .known (.answered text (exec { h with tree := t } (wholeRun s h text)).2)⟩ where
  read _ hinput := by
    cases hinput
    exact hjob.read text rfl
  ran _ _ haccount := by
    cases haccount
    exact ⟨t, ht, rfl⟩
  ended _ _ hstage := by cases hstage

/-- An account stays grounded when the file is settled with what it means. -/
theorem Grounded.settled {path : Path} {account : Account}
    (hjob : Grounded exec s h paths ⟨path, .known account⟩) :
    Grounded exec s h paths ⟨path, .settled account account.verdict⟩ where
  read text hinput := hjob.read text hinput
  ran text result haccount := hjob.ran text result haccount
  ended _ _ hstage := by
    cases hstage
    rfl

/-- Nothing is wrong before the work begins. -/
theorem Sound.start : Sound exec s check h paths (Batch.start h paths) where
  host := rfl
  order := by simp [Batch.start, Job.ofPath, Function.comp_def]
  shape := rfl
  jobs := by
    intro job hjob
    obtain ⟨path, -, rfl⟩ := List.mem_map.1 hjob
    exact Grounded.listed path
  nodes _ := .inl rfl
  still _ := rfl

/-- Other files than the selected ones are as they were. -/
theorem Sound.variant {b : Batch} (hb : Sound exec s check h paths b) :
    Variant h paths b.host.tree where
  shape := hb.shape
  rest l hl := by
    refine (hb.nodes l).resolve_right ?_
    rintro ⟨job, hjob, text, hat, -⟩
    exact hl ⟨job.path, hb.order ▸ List.mem_map_of_mem hjob, hat⟩

/-- What holds of all files holds on when one of them is replaced by a file of which it
holds. -/
theorem forall_replaced {P : Job → Prop} {job new : Job}
    (hall : ∀ other ∈ before ++ job :: later, P other) (hnew : P new) :
    ∀ other ∈ before ++ new :: later, P other := by
  intro other hother
  simp only [List.mem_append, List.mem_cons] at hother
  rcases hother with hother | rfl | hother
  · exact hall other (by simp [hother])
  · exact hnew
  · exact hall other (by simp [hother])

/-- A node that another file was written to is left alone when a file is replaced. -/
theorem Rewritten.replaced {job new : Job} {l : Location} {n? : Option Node}
    (hrewritten : Rewritten check h (before ++ job :: later) l n?)
    (hnone : job.stage.written? check = none) :
    Rewritten check h (before ++ new :: later) l n? := by
  obtain ⟨other, hother, text, hat, hwritten, hnode⟩ := hrewritten
  refine ⟨other, ?_, text, hat, hwritten, hnode⟩
  simp only [List.mem_append, List.mem_cons] at hother ⊢
  rcases hother with hother | rfl | hother
  · exact .inl hother
  · rw [hnone] at hwritten
    cases hwritten
  · exact .inr (.inr hother)

/-- A file that nothing was written to may come to another stage. -/
theorem Sound.advance {host : Host} (hb : Sound exec s check h paths ⟨host, before ++ job :: later⟩)
    (hjob : Grounded exec s h paths ⟨job.path, stage⟩)
    (hnone : job.stage.written? check = none) :
    Sound exec s check h paths ⟨host, before ++ ⟨job.path, stage⟩ :: later⟩ where
  host := hb.host
  order := by simpa using hb.order
  shape := hb.shape
  jobs := forall_replaced hb.jobs hjob
  nodes l := (hb.nodes l).imp id fun hrewritten => hrewritten.replaced hnone
  still hall := hb.still (forall_replaced hall hnone)

/-- A file may come to a stage at which its new text was written. -/
theorem Sound.write {host : Host} (hb : Sound exec s check h paths ⟨host, before ++ job :: later⟩)
    (hjob : Grounded exec s h paths ⟨job.path, stage⟩) (hnone : job.stage.written? check = none)
    {text : Text} (hstage : stage.written? check = some text) {l : Location}
    (hat : h.tree.fileAt? h.cwd job.path = some l) {old : Bytes} {executable : Bool}
    (hnode : host.tree.node? l = some (.file old executable)) :
    Sound exec s check h paths
      ⟨{ host with tree := host.tree.put l (.file (Utf8.encode text) executable) },
        before ++ ⟨job.path, stage⟩ :: later⟩ where
  host := by
    have hhost := hb.host
    simp only at hhost ⊢
    rw [hhost]
  order := by simpa using hb.order
  shape := (Tree.shape_put_file hnode _).trans hb.shape
  jobs := forall_replaced hb.jobs hjob
  nodes k := by
    have hput := Tree.node_put (t := host.tree) (Tree.ne_root_of_file hnode)
      (.file (Utf8.encode text) executable) k
    by_cases hk : k = l
    · subst hk
      obtain ⟨first, hfirst⟩ := Tree.file_of_shape hb.shape hnode
      rw [if_pos rfl] at hput
      refine .inr ⟨⟨job.path, stage⟩, by simp, text, hat, hstage, ?_⟩
      simp [hput, hfirst, Node.refill]
    · rw [if_neg hk] at hput
      rw [hput]
      exact (hb.nodes k).imp id fun hrewritten => hrewritten.replaced hnone
  still hall := by
    have hnothing : stage.written? check = none := hall ⟨job.path, stage⟩ (by simp)
    rw [hstage] at hnothing
    cases hnothing

/-- A move keeps what stages say, and writes at most the file that it is about. -/
theorem Sound.next {host after : Host} (hfiles : AreFiles h paths) (hkeeps : Keeps exec s h paths)
    (hb : Sound exec s check h paths ⟨host, before ++ job :: later⟩)
    (hnext : job.stage.next? exec s check host job.path = some (after, stage)) :
    Grounded exec s h paths ⟨job.path, stage⟩ ∧ job.stage.written? check = none ∧
    (after = host ∧ stage.written? check = none ∨
      ∃ text l old executable, stage.written? check = some text ∧
        h.tree.fileAt? h.cwd job.path = some l ∧
        host.tree.node? l = some (.file old executable) ∧
        after = { host with tree := host.tree.put l (.file (Utf8.encode text) executable) }) := by
  have hhost : host = { h with tree := host.tree } := hb.host
  have hcwd : host.cwd = h.cwd := by rw [hhost]
  have hjob : Grounded exec s h paths job := hb.jobs job (by simp)
  have hat (l : Location) : host.tree.fileAt? host.cwd job.path = some l ↔
      h.tree.fileAt? h.cwd job.path = some l := by
    rw [Tree.fileAt_eq_of_shape hb.shape, hcwd]
  obtain ⟨path, current⟩ := job
  obtain ⟨text, rfl, hread, rfl, rfl⟩ | ⟨message, rfl, -, rfl, rfl⟩ | ⟨text, rfl, rfl, rfl⟩ |
    ⟨account, rfl, rfl, rfl⟩ := Stage.next_cases hnext
  · -- the file is read
    rw [hhost] at hread
    exact ⟨Grounded.loaded hb.variant hread, rfl, .inl ⟨rfl, rfl⟩⟩
  · -- the file cannot be read
    exact ⟨Grounded.unreadable path message, rfl, .inl ⟨rfl, rfl⟩⟩
  · -- the formatter runs
    have hrun : exec host (Format.invocation s (Command.directoryOf host) ⟨text⟩
          (Document.fullRange ⟨text⟩)) =
        exec { h with tree := host.tree } (wholeRun s h text) := by
      rw [invocation_eq_wholeRun, ← hhost]
      simp only [wholeRun, Command.directoryOf, hcwd]
    have hkept := hkeeps host.tree text hb.variant
    dsimp only
    rw [hrun]
    exact ⟨hjob.answered hb.variant, rfl, .inl ⟨hkept.trans hhost.symm, rfl⟩⟩
  · -- the file is written, if it changes
    cases hwritten : account.verdict.written? check with
    | none =>
      rw [install_of_written_none host path hwritten]
      exact ⟨hjob.settled, rfl, .inl ⟨rfl, hwritten⟩⟩
    | some new =>
      obtain ⟨rfl, hchanged⟩ := Verdict.written_eq_some_iff.1 hwritten
      obtain ⟨text, o, rfl, -⟩ := verdict_eq_changed_iff.1 hchanged
      obtain ⟨t, ht, hread⟩ := hjob.read text rfl
      have hpath : path ∈ paths := by
        rw [← hb.order]
        simp
      obtain ⟨l, hl⟩ := ht.exists_fileAt hfiles hpath hread
      obtain ⟨old, executable, hnode, hinstall⟩ := install_of_written_some hwritten ((hat l).2 hl)
      rw [hinstall]
      exact ⟨hjob.settled, rfl, .inr ⟨new, l, old, executable, hwritten, hl, hnode, rfl⟩⟩

/-- Each move keeps what is known of files and contents. -/
theorem Sound.afterStep {b b' : Batch} {i : Nat} (hfiles : AreFiles h paths)
    (hkeeps : Keeps exec s h paths) (hb : Sound exec s check h paths b)
    (hstep : b.step exec s check i = some b') : Sound exec s check h paths b' := by
  obtain ⟨host, jobs⟩ := b
  obtain ⟨after, jobs'⟩ := b'
  obtain ⟨before, job, later, stage, rfl, hnext, rfl⟩ := Batch.step_cases hstep
  obtain ⟨hjob, hnone, ⟨rfl, -⟩ | ⟨text, l, old, executable, hstage, hat, hnode, rfl⟩⟩ :=
    hb.next hfiles hkeeps hnext
  · exact hb.advance hjob hnone
  · exact hb.write hjob hnone hstage hat hnode

/-- What is known of files and contents at any time. -/
theorem sound_of_run {b : Batch} {order : List Nat} (hfiles : AreFiles h paths)
    (hkeeps : Keeps exec s h paths)
    (hrun : (Batch.start h paths).run exec s check order = some b) :
    Sound exec s check h paths b :=
  Batch.run_invariant Sound.start (fun _ _ _ => Sound.afterStep hfiles hkeeps) hrun

/-- What is known of files and contents when the work on all files is over. -/
theorem sound_of_formats {b : Batch} (hfiles : AreFiles h paths) (hkeeps : Keeps exec s h paths)
    (hb : Formats exec s check h paths b) : Sound exec s check h paths b := by
  obtain ⟨⟨order, hrun⟩, -⟩ := hb
  exact sound_of_run hfiles hkeeps hrun

end Moves

/-! ## Different files -/

section Faithful

/-- What holds of different files at any time: each was read as it was at the beginning, and
holds what its own work ended with. -/
structure Faithful (check : Bool) (h : Host) (b : Batch) : Prop where
  read : ∀ job ∈ b.jobs, ∀ content, job.stage.input? = some content →
    content = Command.readText h job.path
  held : ∀ job ∈ b.jobs, ∀ l, h.tree.fileAt? h.cwd job.path = some l →
    b.host.tree.node? l = (h.tree.node? l).map (Node.refill (job.stage.written? check))

variable {exec : Executor} {s : Settings} {check : Bool} {h : Host} {paths : List Path}
  {before later : List Job} {job : Job} {stage : Stage}

theorem Faithful.start : Faithful check h (Batch.start h paths) where
  read := by
    intro job hjob content hinput
    obtain ⟨path, -, rfl⟩ := List.mem_map.1 hjob
    cases hinput
  held := by
    intro job hjob l _
    obtain ⟨path, -, rfl⟩ := List.mem_map.1 hjob
    have hnothing : (Job.ofPath path).stage.written? check = none := rfl
    simp [hnothing, Batch.start]

/-- The paths of the other files lead to other places. -/
theorem fileAt_ne_of_distinct (hdistinct : AreDistinct h paths)
    (horder : (before ++ job :: later).map Job.path = paths) {l : Location}
    (hat : h.tree.fileAt? h.cwd job.path = some l) {other : Job}
    (hother : other ∈ before ∨ other ∈ later) :
    h.tree.fileAt? h.cwd other.path ≠ some l := by
  rw [AreDistinct, ← horder, List.pairwise_map, List.pairwise_append, List.pairwise_cons]
    at hdistinct
  obtain ⟨-, ⟨hlater, -⟩, hbefore⟩ := hdistinct
  rcases hother with hother | hother
  · exact fun hl => hbefore other hother job (by simp) l hl hat
  · exact hlater other hother l hat

/-- What is read of a file is what was there at the beginning. -/
theorem Faithful.read_next {host after : Host}
    (hsound : Sound exec s check h paths ⟨host, before ++ job :: later⟩)
    (hb : Faithful check h ⟨host, before ++ job :: later⟩)
    (hnext : job.stage.next? exec s check host job.path = some (after, stage)) :
    ∀ content, stage.input? = some content → content = Command.readText h job.path := by
  have hhost : host = { h with tree := host.tree } := hsound.host
  have hsame : job.stage = .listed →
      Command.readText host job.path = Command.readText h job.path := by
    intro hlisted
    rw [hhost]
    refine Command.readText_eq_of_shape hsound.shape fun l hl => ?_
    have hheld := hb.held job (by simp) l hl
    simpa [hlisted, Stage.written?] using hheld
  have hkept := hb.read job (by simp)
  intro content hcontent
  obtain ⟨text, hlisted, htext, -, rfl⟩ | ⟨message, hlisted, hmessage, -, rfl⟩ |
    ⟨text, hloaded, -, rfl⟩ | ⟨account, hknown, -, rfl⟩ := Stage.next_cases hnext
  · cases hcontent
    rw [← hsame hlisted, htext]
  · cases hcontent
    rw [← hsame hlisted, hmessage]
    rfl
  · rw [hloaded] at hkept
    exact hkept content hcontent
  · rw [hknown] at hkept
    exact hkept content hcontent

/-- Each move keeps different files apart. -/
theorem Faithful.afterStep {b b' : Batch} {i : Nat} (hfiles : AreFiles h paths)
    (hdistinct : AreDistinct h paths) (hkeeps : Keeps exec s h paths)
    (hsound : Sound exec s check h paths b) (hb : Faithful check h b)
    (hstep : b.step exec s check i = some b') : Faithful check h b' := by
  obtain ⟨host, jobs⟩ := b
  obtain ⟨after, jobs'⟩ := b'
  obtain ⟨before, job, later, stage, rfl, hnext, rfl⟩ := Batch.step_cases hstep
  have hread := hb.read_next hsound hnext
  have hreads : ∀ other ∈ before ++ ⟨job.path, stage⟩ :: later, ∀ content,
      other.stage.input? = some content → content = Command.readText h other.path :=
    forall_replaced hb.read hread
  obtain ⟨-, hnone, ⟨rfl, hstage⟩ | ⟨text, l, old, executable, hstage, hat, hnode, rfl⟩⟩ :=
    hsound.next hfiles hkeeps hnext
  · refine ⟨hreads, forall_replaced hb.held fun k hk => ?_⟩
    have hheld := hb.held job (by simp) k hk
    rwa [hnone, ← hstage] at hheld
  · have hput := Tree.node_put (t := host.tree) (Tree.ne_root_of_file hnode)
      (.file (Utf8.encode text) executable)
    obtain ⟨first, hfirst⟩ := Tree.file_of_shape hsound.shape hnode
    have hothers : ∀ other, other ∈ before ∨ other ∈ later → ∀ k,
        h.tree.fileAt? h.cwd other.path = some k →
        (host.tree.put l (.file (Utf8.encode text) executable)).node? k =
          (h.tree.node? k).map (Node.refill (other.stage.written? check)) := by
      intro other hother k hk
      have hkl : k ≠ l := by
        rintro rfl
        exact fileAt_ne_of_distinct hdistinct hsound.order hat hother hk
      have hmem : other ∈ before ++ job :: later := by
        rcases hother with hother | hother <;> simp [hother]
      rw [hput k, if_neg hkl, hb.held other hmem k hk]
    refine ⟨hreads, fun other hother k hk => ?_⟩
    simp only [List.mem_append, List.mem_cons] at hother
    rcases hother with hother | rfl | hother
    · exact hothers other (.inl hother) k hk
    · obtain rfl : l = k := Option.some.inj (hat.symm.trans hk)
      simp [hput, hfirst, hstage, Node.refill]
    · exact hothers other (.inr hother) k hk

/-- Different files are all read and written as if each were alone. -/
theorem faithful_of_formats {b : Batch} (hfiles : AreFiles h paths)
    (hdistinct : AreDistinct h paths) (hkeeps : Keeps exec s h paths)
    (hb : Formats exec s check h paths b) : Faithful check h b := by
  obtain ⟨⟨order, hrun⟩, -⟩ := hb
  have hboth : Sound exec s check h paths b ∧ Faithful check h b := by
    refine Batch.run_invariant (P := fun b => Sound exec s check h paths b ∧ Faithful check h b)
      ⟨Sound.start, Faithful.start⟩ ?_ hrun
    intro before i after hbefore hstep
    exact ⟨hbefore.1.afterStep hfiles hkeeps hstep,
      hbefore.2.afterStep hfiles hdistinct hkeeps hbefore.1 hstep⟩
  exact hboth.2

end Faithful

end Formatting

end FishCheck
