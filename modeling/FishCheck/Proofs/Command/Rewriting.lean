import FishCheck.Proofs.Command.Installing
import FishCheck.Proofs.Text.Decoding
import Mathlib.Data.List.Induction

/-!
# What a rewritten file holds

The output of the formatter is decoded leniently before it is written, so a rewritten file
holds the encoding of the decoded output.  This is what the formatter wrote, byte for byte,
exactly if that is well-formed; ill-formed stretches come out as replacement characters.

Main results:

- Theorem `exists_produced`: a new text is the output of a run on a text that was read.
- Theorem `exists_written`: the move that settles a file as changed writes such an output.
- Theorem `rewritten_holds_decoded`: what files hold after each write and in the end.
- Theorem `rewritten_not_exact`: this need not be what the formatter wrote.
-/

namespace FishCheck

namespace Formatting

/-! ## Where a new text comes from -/

section Sources

variable (exec : Executor) (s : Settings) (h : Host) (paths : List Path)

/-- The work on the files, in some order, comes to this batch on its way. -/
def Passes (order : List Nat) (b : Batch) : Prop :=
  ∃ first, first <+: order ∧ (Batch.start h paths).run exec s false first = some b

/-- On the way, the text was read at the path that has this place among all paths, and then
the formatter succeeded on the text with the output. -/
structure Produced (order : List Nat) (i : Nat) (path : Path) (text : Text) (o : Output) :
    Prop where
  read : ∃ b, Passes exec s h paths order b ∧ b.jobs[i]? = some ⟨path, .listed⟩ ∧
    Command.readText b.host path = .ok text
  ran : ∃ b, Passes exec s h paths order b ∧ b.jobs[i]? = some ⟨path, .loaded text⟩ ∧
    (exec b.host (wholeRun s b.host text)).2 = .ok o
  success : o.exitCode = 0

end Sources

section Writes

variable {exec : Executor} {s : Settings} {h : Host} {paths : List Path} {order : List Nat}
  {b b' : Batch} {i : Nat} {path : Path} {stage : Stage}

theorem Passes.concat (hb : Passes exec s h paths order b) (j : Nat) :
    Passes exec s h paths (order ++ [j]) b := by
  obtain ⟨first, hfirst, hrun⟩ := hb
  exact ⟨first, hfirst.trans (List.prefix_append order [j]), hrun⟩

/-- The batch before the last move. -/
theorem exists_before_last {b₀ : Batch} {j : Nat}
    (hrun : b₀.run exec s false (order ++ [j]) = some b) :
    ∃ c, b₀.run exec s false order = some c ∧ c.step exec s false j = some b := by
  rw [Batch.run_append] at hrun
  obtain ⟨c, hc, hlast⟩ := Option.bind_eq_some_iff.1 hrun
  obtain ⟨d, hd, hnil⟩ := Option.bind_eq_some_iff.1 hlast
  obtain rfl := Option.some.inj hnil
  exact ⟨c, hc, hd⟩

/-- A text at hand was read. -/
theorem exists_read {text : Text}
    (hrun : (Batch.start h paths).run exec s false order = some b)
    (hjob : b.jobs[i]? = some ⟨path, .loaded text⟩) :
    ∃ c, Passes exec s h paths order c ∧ c.jobs[i]? = some ⟨path, .listed⟩ ∧
      Command.readText c.host path = .ok text := by
  -- by induction on the order from its end: the last move read the text or left it
  induction order using List.reverseRecOn generalizing b with
  | nil =>
    obtain rfl := Option.some.inj hrun
    simp [Batch.start, Job.ofPath] at hjob
  | append_singleton order j ih =>
    obtain ⟨c, hc, hstep⟩ := exists_before_last hrun
    obtain ⟨⟨job, stage, hbefore, hnext, hafter⟩, hothers⟩ := Batch.step_at hstep
    by_cases hi : i = j
    · subst hi
      obtain ⟨rfl, rfl⟩ := Job.mk.inj (Option.some.inj (hafter.symm.trans hjob))
      obtain ⟨text', hlisted, hread, -, hloaded⟩ | ⟨_, -, -, -, hother⟩ | ⟨_, -, -, hother⟩ |
        ⟨_, -, -, hother⟩ := Stage.next_cases hnext
      · cases hloaded
        refine ⟨c, ⟨order, List.prefix_append order [i], hc⟩, ?_, hread⟩
        rw [hbefore, ← hlisted]
      all_goals cases hother
    · rw [hothers i hi] at hjob
      obtain ⟨d, hd, hlisted, hread⟩ := ih hc hjob
      exact ⟨d, hd.concat j, hlisted, hread⟩

/-- An answer of the formatter that is known was given. -/
theorem exists_run {text : Text} {result : Except Failure Output}
    (hrun : (Batch.start h paths).run exec s false order = some b)
    (hjob : b.jobs[i]? = some ⟨path, stage⟩)
    (haccount : stage.account? = some (.answered text result)) :
    ∃ c, Passes exec s h paths order c ∧ c.jobs[i]? = some ⟨path, .loaded text⟩ ∧
      result = (exec c.host (wholeRun s c.host text)).2 := by
  -- by induction on the order from its end: the last move ran the formatter or kept its answer
  induction order using List.reverseRecOn generalizing b stage with
  | nil =>
    obtain rfl := Option.some.inj hrun
    obtain ⟨path', -, hpath⟩ : ∃ path', paths[i]? = some path' ∧
        Job.ofPath path' = ⟨path, stage⟩ := by simpa [Batch.start] using hjob
    cases hpath
    cases haccount
  | append_singleton order j ih =>
    obtain ⟨c, hc, hstep⟩ := exists_before_last hrun
    obtain ⟨⟨job, stage', hbefore, hnext, hafter⟩, hothers⟩ := Batch.step_at hstep
    by_cases hi : i = j
    · subst hi
      obtain ⟨rfl, rfl⟩ := Job.mk.inj (Option.some.inj (hafter.symm.trans hjob))
      obtain ⟨_, -, -, -, rfl⟩ | ⟨_, -, -, -, rfl⟩ | ⟨text', hloaded, -, rfl⟩ |
        ⟨account, hknown, -, rfl⟩ := Stage.next_cases hnext
      · cases haccount
      · cases haccount
      · cases haccount
        refine ⟨c, ⟨order, List.prefix_append order [i], hc⟩, ?_, ?_⟩
        · rw [hbefore, ← hloaded]
        · rw [invocation_eq_wholeRun]
      · cases haccount
        have hkept : c.jobs[i]? = some ⟨job.path, .known (.answered text result)⟩ := by
          rw [hbefore, ← hknown]
        obtain ⟨d, hd, hloaded, hresult⟩ := ih hc hkept rfl
        exact ⟨d, hd.concat i, hloaded, hresult⟩
    · rw [hothers i hi] at hjob
      obtain ⟨d, hd, hloaded, hresult⟩ := ih hc hjob haccount
      exact ⟨d, hd.concat j, hloaded, hresult⟩

/-- A new text is the decoded output of a successful run on another text that was read. -/
theorem exists_produced {account : Account} {new : Text}
    (hrun : (Batch.start h paths).run exec s false order = some b)
    (hjob : b.jobs[i]? = some ⟨path, stage⟩) (haccount : stage.account? = some account)
    (hchanged : account.verdict = .changed new) :
    ∃ text o, Produced exec s h paths order i path text o ∧ new ≠ text ∧
      Utf8.lenient o.stdout = new := by
  obtain ⟨text, o, rfl, hcode, hnew, hne⟩ := verdict_eq_changed_iff.1 hchanged
  obtain ⟨c, hc, hloaded, hresult⟩ := exists_run hrun hjob haccount
  obtain ⟨first, hfirst, hpassed⟩ := hc
  obtain ⟨d, ⟨earlier, hearlier, hd⟩, hlisted, hread⟩ := exists_read hpassed hloaded
  refine ⟨text, o, ⟨⟨d, ⟨earlier, hearlier.trans hfirst, hd⟩, hlisted, hread⟩, ?_, hcode⟩, hne,
    hnew⟩
  exact ⟨c, ⟨first, hfirst, hpassed⟩, hloaded, hresult.symm⟩

/-! ## Writes -/

/-- A file that is settled as changed was written with the new text. -/
theorem install_changed {h : Host} {path : Path} {verdict : Verdict} {new : Text}
    (hinstall : (install false h path verdict).2 = .changed new) :
    verdict = .changed new ∧
      ∃ t, h.tree.write h.cwd path (Utf8.encode new) = .ok t ∧
        (install false h path verdict).1 = { h with tree := t } := by
  cases verdict with
  | changed text =>
    unfold install at hinstall ⊢
    simp only [Bool.false_eq_true, if_false] at hinstall ⊢
    cases hwrite : h.tree.write h.cwd path (Utf8.encode text) with
    | ok t =>
      simp only [hwrite] at hinstall ⊢
      cases hinstall
      exact ⟨rfl, t, hwrite, rfl⟩
    | error f =>
      simp only [hwrite] at hinstall
      cases hinstall
  | _ => cases hinstall

/-- The move that settles a file as changed writes the decoded output of a run. -/
theorem exists_written {account : Account} {new : Text}
    (hrun : (Batch.start h paths).run exec s false order = some b)
    (hstep : b.step exec s false i = some b')
    (hsettled : b'.jobs[i]? = some ⟨path, .settled account (.changed new)⟩) :
    ∃ text o, Produced exec s h paths order i path text o ∧ new ≠ text ∧
      Utf8.lenient o.stdout = new ∧
      ∃ t, b.host.tree.write b.host.cwd path (Utf8.encode new) = .ok t ∧
        b'.host = { b.host with tree := t } := by
  obtain ⟨⟨job, stage', hjob, hnext, hafter⟩, -⟩ := Batch.step_at hstep
  obtain ⟨rfl, rfl⟩ := Job.mk.inj (Option.some.inj (hafter.symm.trans hsettled))
  obtain ⟨_, -, -, -, hother⟩ | ⟨_, -, -, -, hother⟩ | ⟨_, -, -, hother⟩ |
    ⟨account', hknown, hhost, hverdict⟩ := Stage.next_cases hnext
  · cases hother
  · cases hother
  · cases hother
  · obtain ⟨rfl, hinstall⟩ := Stage.settled.inj hverdict
    obtain ⟨hchanged, t, hwrite, hwritten⟩ := install_changed hinstall.symm
    obtain ⟨text, o, hproduced, hne, hnew⟩ :=
      exists_produced hrun hjob (by rw [hknown]; rfl) hchanged
    exact ⟨text, o, hproduced, hne, hnew, t, hwrite, hhost.trans hwritten⟩

/-- With a formatter that writes no file itself, a file that is another one than at the
beginning holds the decoded output of a run. -/
theorem exists_produced_of_node (hfiles : AreFiles h paths) (hkeeps : Keeps exec s h paths)
    (hrun : (Batch.start h paths).run exec s false order = some b) {l : Location}
    (hchanged : b.host.tree.node? l ≠ h.tree.node? l) :
    ∃ i path text output executable, Produced exec s h paths order i path text output ∧
      h.tree.fileAt? h.cwd path = some l ∧ Utf8.lenient output.stdout ≠ text ∧
      b.host.tree.node? l =
        some (.file (Utf8.encode (Utf8.lenient output.stdout)) executable) := by
  have hsound := sound_of_run hfiles hkeeps hrun
  obtain ⟨job, hjob, new, hat, hwritten, hnode⟩ := (hsound.nodes l).resolve_left hchanged
  obtain ⟨i, hi⟩ := List.mem_iff_getElem?.1 hjob
  obtain ⟨content, executable, hfind⟩ := Tree.fileAt_eq_some_iff.1 hat
  rw [Tree.node_of_find hfind] at hnode
  cases hstage : job.stage with
  | settled account verdict =>
    obtain rfl := (hsound.jobs job hjob).ended account verdict hstage
    rw [hstage] at hwritten
    obtain ⟨-, hverdict⟩ := Verdict.written_eq_some_iff.1 hwritten
    obtain ⟨text, output, hproduced, hne, rfl⟩ :=
      exists_produced hrun hi (by rw [hstage]; rfl) hverdict
    exact ⟨i, job.path, text, output, executable, hproduced, hat, hne, hnode⟩
  | _ => simp [hstage, Stage.written?] at hwritten

end Writes

/-! ## The command -/

/-- A formatter with the same output for every text rewrites a file of another text that is
given by its name. -/
theorem rewrites_named_file {t : Tree} {name text : Text} {executable : Bool} (output : Output)
    (hsettings : t.node? [Utf8.encode ".fishlint.toml"] = none)
    (hname : Tree.IsName (Path.ofText name) ∧
      (Path.ofText name).withoutCurrent = Path.ofText name)
    (hnode : t.node? [Utf8.encode name] = some (.file (Utf8.encode text) executable))
    (hcode : output.exitCode = 0) (hne : Utf8.lenient output.stdout ≠ text) :
    let exec : Executor := fun h _ => (h, .ok output)
    let h : Host := { tree := t }
    let paths := [Path.ofText name]
    Command.resolve h {} = .ok {} ∧ Discovery.find h.tree h.cwd [name] = .ok paths ∧
    AreFiles h paths ∧ AreDistinct h paths ∧ Keeps exec {} h paths ∧
    h.tree.fileAt? h.cwd (Path.ofText name) = some [Utf8.encode name] ∧
    (run exec {} h {} [name] false false []).1.tree.node? [Utf8.encode name] =
      some (.file (Utf8.encode (Utf8.lenient output.stdout)) executable) := by
  intro exec h paths
  have hs : Command.resolve h {} = .ok {} := Command.resolve_of_free hsettings
  have hfile : (h.tree.node? (h.cwd ++ [Utf8.encode name])).any Node.isFile = true := by
    rw [show h.tree.node? (h.cwd ++ [Utf8.encode name]) = _ from hnode]
    rfl
  have hat : h.tree.fileAt? h.cwd (Path.ofText name) = some [Utf8.encode name] :=
    Tree.fileAt_of_name hname.1 hfile
  obtain ⟨hfind, hfiles, hdistinct⟩ : Discovery.find h.tree h.cwd [name] = .ok paths ∧
      AreFiles h paths ∧ AreDistinct h paths :=
    selection_of_names (by simpa using hname) (by simp) (by simpa using hfile)
  have hkeeps : Keeps exec {} h paths := fun _ _ _ => rfl
  obtain ⟨b, hb, hrun⟩ : ∃ b, Formats exec {} false h paths b ∧
      run exec {} h {} [name] false false [] = (b.host, report {} false b.results) :=
    run_eq_formats hs hfind false []
  obtain ⟨account, -, halone⟩ := exists_alone hfiles hdistinct hkeeps hb (List.mem_singleton.2 rfl)
  refine ⟨hs, hfind, hfiles, hdistinct, hkeeps, hat, ?_⟩
  rw [hrun]
  exact halone.installs hat hnode (fun _ _ => rfl) hcode hne

/-- Whenever formatting rewrites a file, it writes the decoded output of a successful run of
the formatter on a text that was read there, encoded again: this is what is read at the path
of a file after the write, whatever the formatter does to files.  It is what the formatter
wrote, byte for byte, exactly if that is the encoding of a text.  If the formatter writes no
file itself, every file that is another one than at the beginning holds such an output.  This
holds of every order in which the work on the files can go, and the command goes through one
of them. -/
theorem rewritten_holds_decoded (exec : Executor) (p : Palette) (h : Host) (o : Overrides)
    (args : List Text) (stdin : Bytes) (s : Settings) (paths : List Path)
    (hs : Command.resolve h o = .ok s) (hfind : Discovery.find h.tree h.cwd args = .ok paths) :
    (∃ b, Formats exec s false h paths b ∧
      run exec p h o args false false stdin = (b.host, report p false b.results)) ∧
    ∀ order b, (Batch.start h paths).run exec s false order = some b →
      (∀ i b' path account new, b.step exec s false i = some b' →
        b'.jobs[i]? = some ⟨path, .settled account (.changed new)⟩ →
        ∃ text output, Produced exec s h paths order i path text output ∧
          Utf8.lenient output.stdout ≠ text ∧
          ∃ content, content = Utf8.encode (Utf8.lenient output.stdout) ∧
            (content = output.stdout ↔ ∃ decoded, output.stdout = Utf8.encode decoded) ∧
            (∃ t, b.host.tree.write b.host.cwd path content = .ok t ∧
              b'.host = { b.host with tree := t }) ∧
            ∀ l, b.host.tree.fileAt? b.host.cwd path = some l →
              b'.host.tree.read b'.host.cwd path = .ok content) ∧
      (AreFiles h paths → Keeps exec s h paths →
        ∀ l, b.host.tree.node? l ≠ h.tree.node? l →
          ∃ i path text output executable, Produced exec s h paths order i path text output ∧
            h.tree.fileAt? h.cwd path = some l ∧ Utf8.lenient output.stdout ≠ text ∧
            b.host.tree.node? l =
              some (.file (Utf8.encode (Utf8.lenient output.stdout)) executable)) := by
  refine ⟨run_eq_formats hs hfind false stdin, fun order b hrun => ⟨?_, ?_⟩⟩
  · intro i b' path account new hstep hsettled
    obtain ⟨text, output, hproduced, hne, rfl, t, hwrite, hhost⟩ :=
      exists_written hrun hstep hsettled
    refine ⟨text, output, hproduced, hne, _, rfl, Utf8.encode_lenient_eq_iff output.stdout,
      ⟨t, hwrite, hhost⟩, fun l hat => ?_⟩
    rw [hhost]
    exact Tree.read_of_write hat hwrite
  · exact fun hfiles hkeeps l hchanged => exists_produced_of_node hfiles hkeeps hrun hchanged

/-- A formatter that writes a byte that is no text leaves a replacement character behind. -/
theorem rewritten_holds_decoded_replacement :
    let exec : Executor := fun h _ => (h, .ok ⟨0, [0xFF, 0x0A], []⟩)
    let h : Host :=
      { tree := ⟨⟨[([Utf8.encode "a.fish"], .file (Utf8.encode "b\n") false)]⟩⟩ }
    Command.resolve h {} = .ok {} ∧
    Discovery.find h.tree h.cwd ["a.fish".toList] = .ok ["a.fish"] ∧
    ∃ b b', (Batch.start h ["a.fish"]).run exec {} false [0, 0] = some b ∧
      b.step exec {} false 0 = some b' ∧
      b'.host.tree.read b'.host.cwd "a.fish" = .ok (Utf8.encode "\uFFFD\n") := by
  intro exec h
  let output : Output := ⟨0, [0xFF, 0x0A], []⟩
  have hnode : h.tree.node? [Utf8.encode "a.fish"] =
      some (.file (Utf8.encode "b\n") false) := by decide +kernel
  obtain ⟨hs, hfind, -, -, -, hat, -⟩ :=
    rewrites_named_file output (by decide +kernel) (by decide +kernel) hnode rfl
      (by decide +kernel)
  have hread : Command.readText h "a.fish" = .ok "b\n" := Command.readText_of_node hat hnode
  let account : Account := .answered "b\n" (.ok output)
  have hdecoded : Utf8.lenient output.stdout = "\uFFFD\n".toList := by decide +kernel
  have hchanged : account.verdict = .changed "\uFFFD\n" :=
    verdict_eq_changed_iff.2 ⟨_, output, rfl, rfl, hdecoded, by decide +kernel⟩
  have hrun : (Batch.start h ["a.fish"]).run exec {} false [0, 0] =
      some ⟨h, [⟨"a.fish", .known account⟩]⟩ := by
    have hloaded : (Batch.start h ["a.fish"]).step exec {} false 0 =
        some ⟨h, [⟨"a.fish", .loaded "b\n"⟩]⟩ := by
      simp only [Batch.start, List.map_cons, List.map_nil, Batch.step, Job.ofPath,
        List.getElem?_cons_zero, Option.bind_some, Stage.next?, hread, Option.map_some,
        List.set_cons_zero]
    rw [Batch.run, hloaded]
    rfl
  obtain ⟨t, hinstall⟩ : ∃ t, install false h "a.fish" account.verdict =
      ({ h with tree := t }, .changed "\uFFFD\n") := by
    have hwritten : account.verdict.written? false = some "\uFFFD\n".toList := by
      rw [hchanged]
      rfl
    obtain ⟨_, _, -, hinstalled⟩ := install_of_written_some hwritten hat
    exact ⟨_, hchanged ▸ hinstalled⟩
  have hstep : Batch.step exec {} false ⟨h, [⟨"a.fish", .known account⟩]⟩ 0 =
      some ⟨{ h with tree := t }, [⟨"a.fish", .settled account (.changed "\uFFFD\n")⟩]⟩ := by
    simp only [Batch.step, List.getElem?_cons_zero, Option.bind_some, Stage.next?, hinstall,
      Option.map_some, List.set_cons_zero]
  obtain ⟨-, hall⟩ := rewritten_holds_decoded exec {} h {} _ [] {} _ hs hfind
  obtain ⟨hwrites, -⟩ := hall [0, 0] _ hrun
  obtain ⟨text, _, hproduced, -, content, rfl, -, -, hholds⟩ := hwrites 0 _ _ _ _ hstep rfl
  obtain ⟨b, -, -, hran⟩ := hproduced.ran
  obtain rfl := Except.ok.inj hran
  refine ⟨hs, hfind, _, _, hrun, hstep, ?_⟩
  rw [← hdecoded]
  exact hholds _ hat

/-- What the formatter writes is not always what the file holds, byte for byte. -/
theorem rewritten_not_exact :
    ¬ ∀ (exec : Executor) (p : Palette) (h : Host) (o : Overrides) (args : List Text)
      (stdin : Bytes) (s : Settings) (paths : List Path),
      Command.resolve h o = .ok s → Discovery.find h.tree h.cwd args = .ok paths →
      AreFiles h paths → AreDistinct h paths → Keeps exec s h paths →
      ∀ path ∈ paths, ∀ l text output, h.tree.fileAt? h.cwd path = some l →
        Command.readText h path = .ok text →
        (exec h (wholeRun s h text)).2 = .ok output → output.exitCode = 0 →
        (run exec p h o args false false stdin).1.tree.node? l ≠ h.tree.node? l →
        ∃ executable, (run exec p h o args false false stdin).1.tree.node? l =
          some (.file output.stdout executable) := by
  intro hexact
  let output : Output := ⟨0, [0xFF, 0x0A], []⟩
  let h : Host := { tree := ⟨⟨[([Utf8.encode "a.fish"], .file (Utf8.encode "b\n") false)]⟩⟩ }
  have hnode : h.tree.node? [Utf8.encode "a.fish"] =
      some (.file (Utf8.encode "b\n") false) := by decide +kernel
  obtain ⟨hs, hfind, hfiles, hdistinct, hkeeps, hat, hafter⟩ :=
    rewrites_named_file output (by decide +kernel) (by decide +kernel) hnode rfl
      (by decide +kernel)
  have hread : Command.readText h "a.fish" = .ok "b\n" := Command.readText_of_node hat hnode
  obtain ⟨executable, hholds⟩ := hexact _ {} h {} _ [] {} _ hs hfind hfiles hdistinct hkeeps
    "a.fish" (List.mem_singleton.2 rfl) _ _ output hat hread rfl rfl (by
      rw [hafter, hnode]
      decide +kernel)
  rw [hafter] at hholds
  have hbytes : Utf8.encode (Utf8.lenient output.stdout) ≠ output.stdout := by decide +kernel
  exact hbytes (Node.file.inj (Option.some.inj hholds)).1

end Formatting

end FishCheck
