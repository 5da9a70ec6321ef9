import FishCheck.Proofs.Command.Effects
import FishCheck.Proofs.Command.Selection
import FishCheck.Proofs.Host.Names

/-!
# A file changes only for a successful result

Formatting files leaves every file as it is, except a selected one whose text the formatter
answered with another one, and only if more than a check is asked for.  What becomes of one
file is a matter of its own text and of the formatter's answer to it: files that cannot be
read, are rejected or fail stop nothing and change nothing for the others.

Main results:

- Theorem `alone_of_formats`: each file is treated as if it were the only one.
- Theorem `Alone.account_unique`: the answer to its text settles what becomes of a file.
- Theorem `installs_only_successes`: what the command does to a tree, file by file.
-/

namespace FishCheck

namespace Command

/-- A file with a text holds exactly the bytes of the text. -/
theorem node_of_readText {h : Host} {path : Path} {text : Text} {l : Location} {content : Bytes}
    {executable : Bool} (hat : h.tree.fileAt? h.cwd path = some l)
    (hnode : h.tree.node? l = some (.file content executable))
    (hread : readText h path = .ok text) : content = Utf8.encode text := by
  have hbytes : h.tree.read h.cwd path = .ok content := Tree.read_of_fileAt hat hnode
  simp only [readText, Host.view, FileView.readText, Tree.view, hbytes, Except.mapError,
    Except.bind] at hread
  cases hstrict : Utf8.strict? content with
  | none =>
    rw [hstrict] at hread
    cases hread
  | some decoded =>
    rw [hstrict] at hread
    cases hread
    exact (Utf8.strict_eq_some_iff content text).1 hstrict

/-- A file that holds the bytes of a text has this text. -/
theorem readText_of_node {h : Host} {path : Path} {text : Text} {l : Location} {executable : Bool}
    (hat : h.tree.fileAt? h.cwd path = some l)
    (hnode : h.tree.node? l = some (.file (Utf8.encode text) executable)) :
    readText h path = .ok text := by
  have hbytes : h.tree.read h.cwd path = .ok (Utf8.encode text) := Tree.read_of_fileAt hat hnode
  simp only [readText, Host.view, FileView.readText, Tree.view, hbytes, Except.mapError,
    Except.bind, Utf8.strict_encode]

/-- The name of a file that holds the bytes of a text has this text. -/
theorem readText_of_name {h : Host} {path : Path} {text : Text} {executable : Bool}
    (hname : Tree.IsName path)
    (hnode : h.tree.node? (h.cwd ++ [path.bytes]) = some (.file (Utf8.encode text) executable)) :
    readText h path = .ok text :=
  readText_of_node (Tree.fileAt_of_name hname (by rw [hnode]; rfl)) hnode

/-- The name of a file whose bytes are no text cannot be read as one. -/
theorem readText_of_ill_formed {h : Host} {path : Path} {content : Bytes} {executable : Bool}
    (hname : Tree.IsName path)
    (hnode : h.tree.node? (h.cwd ++ [path.bytes]) = some (.file content executable))
    (hill : Utf8.strict? content = none) :
    readText h path = .error ("Failed to read " ++ path.toText ++ ": " ++ notText) := by
  have hbytes : h.tree.read h.cwd path = .ok content :=
    Tree.read_of_fileAt (Tree.fileAt_of_name hname (by rw [hnode]; rfl)) hnode
  simp only [readText, Host.view, FileView.readText, Tree.view, hbytes, Except.mapError,
    Except.bind, hill]

end Command

namespace Formatting

/-! ## Results -/

/-- The results of a batch are the verdicts that its files were settled with. -/
theorem mem_results_iff {b : Batch} {path : Path} {verdict : Verdict} :
    (path, verdict) ∈ b.results ↔
      ∃ job ∈ b.jobs, job.path = path ∧ ∃ account, job.stage = .settled account verdict := by
  rw [Batch.results, List.mem_filterMap]
  refine exists_congr fun job => and_congr_right fun _ => ?_
  obtain ⟨path', stage⟩ := job
  cases stage <;> simp [Job.result?]

/-- When the work on all files is over, there is one result for each, in their order. -/
theorem results_order {b : Batch} (hb : b.Finished) :
    b.results.map Prod.fst = b.jobs.map Job.path := by
  rw [Batch.results, List.map_filterMap, ← List.filterMap_eq_map]
  refine List.filterMap_congr fun job hjob => ?_
  obtain ⟨account, verdict, hstage⟩ := hb job hjob
  simp only [Job.result?, hstage, Option.map_some, Function.comp_apply]

/-! ## One file -/

section OneFile

variable (exec : Executor) (s : Settings) (check : Bool) (h : Host) (paths : List Path)

/-- An account of a file that is as if the file were the only one: it is about the text at
the beginning and a run of the formatter on exactly this text, and the file holds what the
account means for it. -/
structure Alone (after : Tree) (path : Path) (account : Account) : Prop where
  read : account.input = Command.readText h path
  ran : ∀ text result, account = .answered text result →
    ∃ t, Variant h paths t ∧ result = (exec { h with tree := t } (wholeRun s h text)).2
  held : ∀ l, h.tree.fileAt? h.cwd path = some l →
    after.node? l = (h.tree.node? l).map (Node.refill (account.verdict.written? check))

/-- The file that a path leads to held a text, the formatter succeeded on exactly this text
with output for another one, and the file holds that one. -/
def Installed (after : Tree) (path : Path) (l : Location) : Prop :=
  h.tree.fileAt? h.cwd path = some l ∧
  ∃ text executable t o, h.tree.node? l = some (.file (Utf8.encode text) executable) ∧
    Variant h paths t ∧ (exec { h with tree := t } (wholeRun s h text)).2 = .ok o ∧
    o.exitCode = 0 ∧ Utf8.lenient o.stdout ≠ text ∧
    after.node? l = some (.file (Utf8.encode (Utf8.lenient o.stdout)) executable)

/-- Two formatters answer the text of a file alike, whatever has become of the files. -/
def AgreeOn (exec' : Executor) (path : Path) : Prop :=
  ∀ text, Command.readText h path = .ok text → ∀ t t', Variant h paths t → Variant h paths t' →
    (exec { h with tree := t } (wholeRun s h text)).2 =
      (exec' { h with tree := t' } (wholeRun s h text)).2

end OneFile

section Ends

variable {exec exec' : Executor} {s : Settings} {check : Bool} {h : Host} {paths : List Path}
  {b : Batch}

/-- Each of several different files is treated as if it were the only one. -/
theorem alone_of_formats (hfiles : AreFiles h paths) (hdistinct : AreDistinct h paths)
    (hkeeps : Keeps exec s h paths) (hb : Formats exec s check h paths b) {job : Job}
    (hjob : job ∈ b.jobs) :
    ∃ account, job.stage = .settled account account.verdict ∧
      Alone exec s check h paths b.host.tree job.path account := by
  have hsound := sound_of_formats hfiles hkeeps hb
  have hfaithful := faithful_of_formats hfiles hdistinct hkeeps hb
  have hgrounded := hsound.jobs job hjob
  obtain ⟨account, verdict, hstage⟩ := hb.2 job hjob
  obtain rfl := hgrounded.ended account verdict hstage
  refine ⟨account, hstage, ?_, ?_, ?_⟩
  · exact hfaithful.read job hjob account.input (by rw [hstage]; rfl)
  · rintro text result rfl
    exact hgrounded.ran text result (by rw [hstage]; rfl)
  · intro l hl
    have hheld := hfaithful.held job hjob l hl
    rwa [hstage] at hheld

/-- The formatter's answer to the text of a file settles what becomes of the file. -/
theorem Alone.account_unique {after after' : Tree} {path : Path} {account account' : Account}
    (hagree : AgreeOn exec s h paths exec' path)
    (ha : Alone exec s check h paths after path account)
    (ha' : Alone exec' s check h paths after' path account') : account = account' := by
  have hinput : account.input = account'.input := ha.read.trans ha'.read.symm
  cases account with
  | unreadable message =>
    cases account' with
    | unreadable message' =>
      cases hinput
      rfl
    | answered text' result' => cases hinput
  | answered text result =>
    cases account' with
    | unreadable message' => cases hinput
    | answered text' result' =>
      cases hinput
      obtain ⟨t, ht, rfl⟩ := ha.ran text result rfl
      obtain ⟨t', ht', rfl⟩ := ha'.ran text result' rfl
      rw [hagree text ha.read.symm t t' ht ht']

theorem AgreeOn.symm {path : Path} (hagree : AgreeOn exec s h paths exec' path) :
    AgreeOn exec' s h paths exec path := by
  intro text hread t t' ht ht'
  exact (hagree text hread t' t ht' ht).symm

/-- Each path has an account of its file. -/
theorem exists_alone (hfiles : AreFiles h paths) (hdistinct : AreDistinct h paths)
    (hkeeps : Keeps exec s h paths) (hb : Formats exec s check h paths b) {path : Path}
    (hpath : path ∈ paths) :
    ∃ account, (path, account.verdict) ∈ b.results ∧
      Alone exec s check h paths b.host.tree path account := by
  rw [← (sound_of_formats hfiles hkeeps hb).order] at hpath
  obtain ⟨job, hjob, rfl⟩ := List.mem_map.1 hpath
  obtain ⟨account, hstage, halone⟩ := alone_of_formats hfiles hdistinct hkeeps hb hjob
  exact ⟨account, mem_results_iff.2 ⟨job, hjob, rfl, account, hstage⟩, halone⟩

/-- Each result is that of an account of its file. -/
theorem alone_of_result (hfiles : AreFiles h paths) (hdistinct : AreDistinct h paths)
    (hkeeps : Keeps exec s h paths) (hb : Formats exec s check h paths b) {path : Path}
    {verdict : Verdict} (hmem : (path, verdict) ∈ b.results) :
    path ∈ paths ∧ ∃ account, verdict = account.verdict ∧
      Alone exec s check h paths b.host.tree path account := by
  obtain ⟨job, hjob, rfl, account, hstage⟩ := mem_results_iff.1 hmem
  obtain ⟨account', hstage', halone⟩ := alone_of_formats hfiles hdistinct hkeeps hb hjob
  obtain ⟨rfl, rfl⟩ := Stage.settled.inj (hstage.symm.trans hstage')
  have horder := (sound_of_formats hfiles hkeeps hb).order
  exact ⟨horder ▸ List.mem_map_of_mem hjob, account, rfl, halone⟩

/-- A formatter that answers the text of a file alike gives the file the same result. -/
theorem result_of_agree (hfiles : AreFiles h paths) (hdistinct : AreDistinct h paths)
    (hkeeps : Keeps exec s h paths) (hkeeps' : Keeps exec' s h paths) {b' : Batch}
    (hb : Formats exec s check h paths b) (hb' : Formats exec' s check h paths b') {path : Path}
    {verdict : Verdict} (hagree : AgreeOn exec s h paths exec' path)
    (hmem : (path, verdict) ∈ b.results) : (path, verdict) ∈ b'.results := by
  obtain ⟨hpath, account, rfl, ha⟩ := alone_of_result hfiles hdistinct hkeeps hb hmem
  obtain ⟨account', hmem', ha'⟩ := exists_alone hfiles hdistinct hkeeps' hb' hpath
  obtain rfl := ha.account_unique hagree ha'
  exact hmem'

/-- A file whose content is another one afterwards got a successful result. -/
theorem Alone.installed {after : Tree} {path : Path} {account : Account} {l : Location}
    (ha : Alone exec s check h paths after path account)
    (hat : h.tree.fileAt? h.cwd path = some l) (hchanged : after.node? l ≠ h.tree.node? l) :
    check = false ∧ Installed exec s h paths after path l := by
  have hheld := ha.held l hat
  cases hwritten : account.verdict.written? check with
  | none =>
    rw [hwritten, Node.refill_none, Option.map_id] at hheld
    exact absurd hheld hchanged
  | some new =>
    obtain ⟨rfl, hverdict⟩ := Verdict.written_eq_some_iff.1 hwritten
    obtain ⟨text, o, rfl, ho, rfl, hne⟩ := verdict_eq_changed_iff.1 hverdict
    obtain ⟨t, ht, hrun⟩ := ha.ran text (.ok o) rfl
    obtain ⟨content, executable, hfind⟩ := Tree.fileAt_eq_some_iff.1 hat
    have hnode := Tree.node_of_find hfind
    obtain rfl := Command.node_of_readText hat hnode ha.read.symm
    refine ⟨rfl, hat, text, executable, t, o, hnode, ht, hrun.symm, ho, hne, ?_⟩
    rw [hheld, hwritten, hnode]
    rfl

/-- A file with a text that the formatter answers with another one holds that one. -/
theorem Alone.installs {after : Tree} {path : Path} {account : Account} {l : Location}
    {text : Text} {output : Output} {executable : Bool}
    (ha : Alone exec s false h paths after path account)
    (hat : h.tree.fileAt? h.cwd path = some l)
    (hnode : h.tree.node? l = some (.file (Utf8.encode text) executable))
    (hrun : ∀ t, Variant h paths t →
      (exec { h with tree := t } (wholeRun s h text)).2 = .ok output)
    (hcode : output.exitCode = 0) (hne : Utf8.lenient output.stdout ≠ text) :
    after.node? l = some (.file (Utf8.encode (Utf8.lenient output.stdout)) executable) := by
  have hread : account.input = .ok text := ha.read.trans (Command.readText_of_node hat hnode)
  cases account with
  | unreadable message => cases hread
  | answered text' result =>
    cases hread
    obtain ⟨t, ht, rfl⟩ := ha.ran text result rfl
    have hverdict : (Account.answered text (.ok output)).verdict =
        .changed (Utf8.lenient output.stdout) :=
      verdict_eq_changed_iff.2 ⟨text, output, rfl, hcode, rfl, hne⟩
    rw [ha.held l hat, hrun t ht, hverdict, hnode]
    rfl

/-- Only files that got a successful result are another afterwards. -/
theorem node_of_formats (hfiles : AreFiles h paths) (hdistinct : AreDistinct h paths)
    (hkeeps : Keeps exec s h paths) (hb : Formats exec s check h paths b) (l : Location) :
    b.host.tree.node? l = h.tree.node? l ∨
      check = false ∧ ∃ path ∈ paths, Installed exec s h paths b.host.tree path l := by
  have hsound := sound_of_formats hfiles hkeeps hb
  rw [or_iff_not_imp_left]
  intro hchanged
  obtain ⟨job, hjob, -, hat, -⟩ := (hsound.nodes l).resolve_left hchanged
  obtain ⟨account, -, halone⟩ := alone_of_formats hfiles hdistinct hkeeps hb hjob
  obtain ⟨hcheck, hinstalled⟩ := halone.installed hat hchanged
  exact ⟨hcheck, job.path, hsound.order ▸ List.mem_map_of_mem hjob, hinstalled⟩

/-- A batch that writes nothing leaves the host as it was. -/
theorem host_of_nothing_written (hfiles : AreFiles h paths) (hkeeps : Keeps exec s h paths)
    (hb : Formats exec s check h paths b)
    (hnothing : ∀ job ∈ b.jobs, job.stage.written? check = none) : b.host = h := by
  have hsound := sound_of_formats hfiles hkeeps hb
  rw [hsound.host, hsound.still hnothing]

end Ends

/-! ## The command -/

/-- Names of files in the working directory, all different and in order, select these
files. -/
theorem selection_of_names {h : Host} {args : List Text}
    (hnames : ∀ arg ∈ args, Tree.IsName (Path.ofText arg) ∧
      (Path.ofText arg).withoutCurrent = Path.ofText arg)
    (horder : (args.map Path.ofText).Pairwise fun p q =>
      Discovery.precedes p q = true ∧ p.same q = false)
    (hnodes : ∀ arg ∈ args,
      (h.tree.node? (h.cwd ++ [Utf8.encode arg])).any Node.isFile = true) :
    Discovery.find h.tree h.cwd args = .ok (args.map Path.ofText) ∧
      AreFiles h (args.map Path.ofText) ∧ AreDistinct h (args.map Path.ofText) := by
  have hfiles : ∀ arg ∈ args, h.tree.isFile h.cwd (Path.ofText arg) = true := fun arg harg =>
    Tree.isFile_of_name (hnames arg harg).1 (hnodes arg harg)
  have hat : ∀ arg ∈ args,
      h.tree.fileAt? h.cwd (Path.ofText arg) = some (h.cwd ++ [Utf8.encode arg]) :=
    fun arg harg => Tree.fileAt_of_name (hnames arg harg).1 (hnodes arg harg)
  refine ⟨?_, ?_, ?_⟩
  · have hplain : (args.map fun arg => (Path.ofText arg).withoutCurrent) =
        args.map Path.ofText := List.map_congr_left fun arg harg => (hnames arg harg).2
    rw [Discovery.find_of_files hfiles, hplain, Discovery.sortPaths_of_pairwise horder]
  · intro path hpath
    obtain ⟨arg, harg, rfl⟩ := List.mem_map.1 hpath
    exact hfiles arg harg
  · refine horder.imp_of_mem fun {p q} hp hq hpq => ?_
    obtain ⟨arg, harg, rfl⟩ := List.mem_map.1 hp
    obtain ⟨arg', harg', rfl⟩ := List.mem_map.1 hq
    intro l hl hl'
    have hplace : h.cwd ++ [Utf8.encode arg] = h.cwd ++ [Utf8.encode arg'] := by
      rw [hat arg harg] at hl
      rw [hat arg' harg'] at hl'
      exact Option.some.inj (hl.trans hl'.symm)
    have hbytes : Utf8.encode arg = Utf8.encode arg' := by simpa using hplace
    have hpath : Path.ofText arg = Path.ofText arg' := congrArg Path.mk hbytes
    simp [hpath, Path.same] at hpq

/-- The command goes through one of the ways in which the work on the files can go. -/
theorem run_eq_formats {exec : Executor} {p : Palette} {h : Host} {o : Overrides}
    {args : List Text} {s : Settings} {paths : List Path} (hs : Command.resolve h o = .ok s)
    (hfind : Discovery.find h.tree h.cwd args = .ok paths) (check : Bool) (stdin : Bytes) :
    ∃ b, Formats exec s check h paths b ∧
      run exec p h o args check false stdin = (b.host, report p check b.results) := by
  obtain ⟨b, hb, hall⟩ := formats_formatAll exec s check h.processors h paths
  refine ⟨b, hb, ?_⟩
  simp only [run, hs, runFiles, hfind, hall]
  rfl

/-- Without settings or with an argument that stands for nothing, nothing happens to the
host. -/
theorem run_refused {exec : Executor} {p : Palette} {h : Host} {o : Overrides} {args : List Text}
    {check : Bool} {stdin : Bytes}
    (hrefused : ∀ s paths, Command.resolve h o = .ok s →
      Discovery.find h.tree h.cwd args ≠ .ok paths) :
    (run exec p h o args check false stdin).1 = h := by
  cases hs : Command.resolve h o with
  | error e => simp only [run, hs]
  | ok s =>
    cases hfind : Discovery.find h.tree h.cwd args with
    | error arg => simp [run, hs, runFiles, hfind]
    | ok paths => exact absurd hfind (hrefused s paths hs)

/-- Formatting files touches a file only to install a successful result.  If there are no
settings or files to work on, nothing is touched.  Otherwise, with a formatter that writes
no file itself, and different files, in every order in which the work on them can go: a file
that is not the same afterwards is a selected one that held a text, on exactly which the
formatter succeeded with another output; a check changes nothing; each file has its result,
which is about this file alone; and with another formatter that answers the text of one file
alike, and the other texts in any way, the same becomes of this file. -/
theorem installs_only_successes (exec : Executor) (p : Palette) (h : Host) (o : Overrides)
    (args : List Text) (check : Bool) (stdin : Bytes) :
    ((∀ s paths, Command.resolve h o = .ok s → Discovery.find h.tree h.cwd args ≠ .ok paths) →
      (run exec p h o args check false stdin).1 = h) ∧
    ∀ s paths, Command.resolve h o = .ok s → Discovery.find h.tree h.cwd args = .ok paths →
      AreFiles h paths → AreDistinct h paths → Keeps exec s h paths →
      (∃ b, Formats exec s check h paths b ∧
        run exec p h o args check false stdin = (b.host, report p check b.results)) ∧
      ∀ b, Formats exec s check h paths b →
        (∀ l, b.host.tree.node? l = h.tree.node? l ∨
          check = false ∧ ∃ path ∈ paths, Installed exec s h paths b.host.tree path l) ∧
        (check = true → b.host = h) ∧
        b.results.map Prod.fst = paths ∧
        (∀ path verdict, (path, verdict) ∈ b.results → ∃ account, verdict = account.verdict ∧
          Alone exec s check h paths b.host.tree path account) ∧
        ∀ exec' b', Keeps exec' s h paths → Formats exec' s check h paths b' →
          ∀ path ∈ paths, AgreeOn exec s h paths exec' path →
            (∀ verdict, (path, verdict) ∈ b.results ↔ (path, verdict) ∈ b'.results) ∧
            ∀ l, h.tree.fileAt? h.cwd path = some l →
              b.host.tree.node? l = b'.host.tree.node? l := by
  refine ⟨run_refused, fun s paths hs hfind hfiles hdistinct hkeeps =>
    ⟨run_eq_formats hs hfind check stdin, fun b hb => ?_⟩⟩
  have hsound := sound_of_formats hfiles hkeeps hb
  refine ⟨node_of_formats hfiles hdistinct hkeeps hb, ?_, ?_, ?_, ?_⟩
  · rintro rfl
    exact host_of_nothing_written hfiles hkeeps hb fun job _ => job.stage.written_check
  · rw [results_order hb.2, hsound.order]
  · intro path verdict hmem
    exact (alone_of_result hfiles hdistinct hkeeps hb hmem).2
  · intro exec' b' hkeeps' hb' path hpath hagree
    refine ⟨fun verdict => ⟨fun hmem => ?_, fun hmem => ?_⟩, fun l hl => ?_⟩
    · exact result_of_agree hfiles hdistinct hkeeps hkeeps' hb hb' hagree hmem
    · exact result_of_agree hfiles hdistinct hkeeps' hkeeps hb' hb hagree.symm hmem
    · obtain ⟨account, -, ha⟩ := exists_alone hfiles hdistinct hkeeps hb hpath
      obtain ⟨account', -, ha'⟩ := exists_alone hfiles hdistinct hkeeps' hb' hpath
      obtain rfl := ha.account_unique hagree ha'
      rw [ha.held l hl, ha'.held l hl]

/-- A file that is no text stays as it is, and does not keep the next one from being
formatted. -/
theorem installs_only_successes_behind_unreadable :
    let exec : Executor := fun h _ => (h, .ok ⟨0, Utf8.encode "x\n", []⟩)
    let h : Host := { tree := ⟨⟨[([Utf8.encode "a.fish"], .file [0xFF] false),
      ([Utf8.encode "c.fish"], .file (Utf8.encode "b\n") false)]⟩⟩ }
    let args : List Text := ["a.fish".toList, "c.fish".toList]
    let paths : List Path := ["a.fish", "c.fish"]
    Command.resolve h {} = .ok {} ∧ Discovery.find h.tree h.cwd args = .ok paths ∧
    AreFiles h paths ∧ AreDistinct h paths ∧ Keeps exec {} h paths ∧
    ∃ b, Formats exec {} false h paths b ∧
      run exec {} h {} args false false [] = (b.host, report {} false b.results) ∧
      b.results.map Prod.fst = paths ∧
      b.host.tree.node? [Utf8.encode "a.fish"] = some (.file [0xFF] false) ∧
      b.host.tree.node? [Utf8.encode "c.fish"] = some (.file (Utf8.encode "x\n") false) := by
  intro exec h args paths
  have hs : Command.resolve h {} = .ok {} := Command.resolve_of_free (by decide +kernel)
  obtain ⟨hfind, hfiles, hdistinct⟩ : Discovery.find h.tree h.cwd args = .ok paths ∧
      AreFiles h paths ∧ AreDistinct h paths :=
    selection_of_names (by decide +kernel) (by decide +kernel) (by decide +kernel)
  have hkeeps : Keeps exec {} h paths := fun _ _ _ => rfl
  obtain ⟨-, hrun⟩ := installs_only_successes exec {} h {} args false []
  obtain ⟨⟨b, hb, heq⟩, hall⟩ := hrun {} paths hs hfind hfiles hdistinct hkeeps
  obtain ⟨hframe, -, horder, halone, -⟩ := hall b hb
  have hkept : b.host.tree.node? [Utf8.encode "a.fish"] = some (.file [0xFF] false) := by
    rcases hframe [Utf8.encode "a.fish"] with hsame | ⟨-, -, -, -, text, _, _, _, hnode, -⟩
    · rw [hsame]
      decide +kernel
    · -- no text has these bytes
      have hbytes : h.tree.node? [Utf8.encode "a.fish"] = some (.file [0xFF] false) := by
        decide +kernel
      obtain ⟨hencode, -⟩ := Node.file.inj (Option.some.inj (hbytes.symm.trans hnode))
      have hill : Utf8.strict? [0xFF] = none := by decide +kernel
      rw [hencode, Utf8.strict_encode] at hill
      cases hill
  have hinstalled : b.host.tree.node? [Utf8.encode "c.fish"] =
      some (.file (Utf8.encode "x\n") false) := by
    have hmem : ("c.fish" : Path) ∈ b.results.map Prod.fst := by
      rw [horder]
      simp [paths]
    obtain ⟨⟨path, verdict⟩, hresult, rfl⟩ := List.mem_map.1 hmem
    obtain ⟨account, -, hc⟩ := halone _ _ hresult
    have hat : h.tree.fileAt? h.cwd "c.fish" = some [Utf8.encode "c.fish"] :=
      Tree.fileAt_of_name (by decide +kernel) (by decide +kernel)
    have hnode : h.tree.node? [Utf8.encode "c.fish"] =
        some (.file (Utf8.encode "b\n") false) := by
      decide +kernel
    exact hc.installs hat hnode (fun t ht => rfl) rfl (by decide +kernel)
  exact ⟨hs, hfind, hfiles, hdistinct, hkeeps, b, hb, heq, horder, hkept, hinstalled⟩

end Formatting

end FishCheck
