import FishCheck.Proofs.Host.Shape

/-!
# Plain names

Most paths that a user gives are plain names.  Such a path leads to the entry of that name
in the working directory, and a path whose first name is not there leads to no file.

Main results:

- Theorem `find_of_name`: the name of a file leads to the file.
- Theorem `fileAt_of_free`: a path that starts with a free name leads to no file.
-/

namespace FishCheck

/-- Whether a node is a file with a content of its own. -/
def Node.isFile : Node → Bool
  | .file .. => true
  | _ => false

theorem Node.isFile_iff {n : Node} :
    n.isFile = true ↔ ∃ content executable, n = .file content executable := by
  cases n <;> simp [isFile]

namespace Tree

/-- A path that is one name. -/
def IsName (p : Path) : Prop :=
  steps p = [.name p.bytes] ∧ p.bytes ≠ [] ∧ 0 ∉ p.bytes ∧ p.bytes.length ≤ maxName

instance (p : Path) : Decidable (IsName p) := inferInstanceAs (Decidable (_ ∧ _))

section Names

variable {t : Tree} {here : Location} {p : Path}

/-- The name of a file leads to the file. -/
theorem find_of_name (hname : IsName p) {content : Bytes} {executable : Bool}
    (hnode : t.node? (here ++ [p.bytes]) = some (.file content executable)) :
    t.find here p = .ok (here ++ [p.bytes], .file content executable) := by
  obtain ⟨hsteps, hnonempty, hzero, hlength⟩ := hname
  have hpath : ¬ maxPath < p.bytes.length := by
    have hmax : maxName ≤ maxPath := by decide
    omega
  have hfollow : t.follow true maxLinks here [.name p.bytes] =
      .ok ⟨here ++ [p.bytes], some (.file content executable)⟩ := by
    rw [follow, if_neg (by omega)]
    simp [hnode]
  have hresolve : t.resolve here p true =
      .ok ⟨here ++ [p.bytes], some (.file content executable)⟩ := by
    rw [resolve, if_neg hnonempty, if_neg hzero, if_neg hpath, hsteps, hfollow]
  simp only [find, hresolve, Except.bind]

theorem isFile_of_name (hname : IsName p)
    (hnode : (t.node? (here ++ [p.bytes])).any Node.isFile = true) : t.isFile here p = true := by
  obtain ⟨n, hn, hfile⟩ := (Option.any_eq_true _ _).1 hnode
  obtain ⟨content, executable, rfl⟩ := Node.isFile_iff.1 hfile
  simp only [isFile, find_of_name hname hn]

theorem fileAt_of_name (hname : IsName p)
    (hnode : (t.node? (here ++ [p.bytes])).any Node.isFile = true) :
    t.fileAt? here p = some (here ++ [p.bytes]) := by
  obtain ⟨n, hn, hfile⟩ := (Option.any_eq_true _ _).1 hnode
  obtain ⟨content, executable, rfl⟩ := Node.isFile_iff.1 hfile
  exact fileAt_eq_some_iff.2 ⟨content, executable, find_of_name hname hn⟩

/-- A path that starts with a free name leads to no file. -/
theorem fileAt_of_free {name : Bytes} {rest : List Path.Component}
    (hsteps : steps p = .name name :: rest) (hfree : t.node? (here ++ [name]) = none) :
    t.fileAt? here p = none := by
  rw [Option.eq_none_iff_forall_ne_some]
  intro l hl
  obtain ⟨content, executable, hfind⟩ := fileAt_eq_some_iff.1 hl
  unfold find resolve at hfind
  split at hfind
  · cases hfind
  split at hfind
  · cases hfind
  split at hfind
  · cases hfind
  rw [hsteps, follow] at hfind
  split at hfind
  · cases hfind
  simp only [hfree] at hfind
  split at hfind <;> cases hfind

/-- A name that no location ends in is free in every directory. -/
theorem node_of_free_name {name : Bytes} (hfree : ∀ e ∈ t.nodes.pairs, e.1.getLast? ≠ some name)
    (here : Location) : t.node? (here ++ [name]) = none := by
  have hl : here ++ [name] ≠ [] := by simp
  rw [node?, if_neg hl, Table.get?, Option.map_eq_none_iff, List.find?_eq_none]
  intro e he hplace
  have hplace : e.1 = here ++ [name] := by simpa using hplace
  exact hfree e he (by rw [hplace, List.getLast?_concat])

end Names

end Tree

end FishCheck
