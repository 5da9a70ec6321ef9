import FishCheck.Proofs.Path.Spellings

/-!
# Files under another spelling

A relative path leads to the same place with `./` in front, unless the two bytes more make it
longer than the system takes.  Searching the directory then goes the same way and spells
every entry with `./` in front.

Main results:

- Theorem `Tree.find_fromHere`: both spellings of a path lead to the same place.
- Theorem `Tree.find_of_slashes`: slashes in a row lead where one does.
- Theorem `entries_fromHere`: both spellings of a directory give the same entries.
- Theorem `expand_fromHere`: both spellings of an argument stand for the same components.
-/

namespace FishCheck

namespace Tree

/-! ## Following -/

variable {t : Tree} {cwd : Location} {p : Path}

theorem steps_fromHere (p : Path) : steps p.fromHere = steps p := by
  cases h : p.isAbsolute with
  | true => rw [Path.fromHere_of_isAbsolute h]
  | false =>
    have hdot : Path.component? [Path.dot] = none := rfl
    have hlast : ([Path.dot] :: Path.splitSlashes p.bytes).getLast? =
        (Path.splitSlashes p.bytes).getLast? := by
      rw [List.getLast?_cons_of_ne_nil]
      rw [Path.splitSlashes_eq_splitOn]
      exact List.splitOn_ne_nil _ _
    simp only [steps, Path.isAbsolute_fromHere, Path.splitSlashes_fromHere h, hlast,
      List.filterMap_cons_none hdot]

/-- Both spellings of a path lead to the same place. -/
theorem resolve_fromHere (hne : p.bytes ≠ []) (hroom : p.bytes.length + 2 ≤ maxPath)
    (last : Bool) : t.resolve cwd p.fromHere last = t.resolve cwd p last := by
  cases h : p.isAbsolute with
  | true => rw [Path.fromHere_of_isAbsolute h]
  | false =>
    have hsteps := steps_fromHere p
    rw [Path.fromHere_of_relative h] at hsteps ⊢
    have hzero : 0 ∈ Path.dot :: Path.slash :: p.bytes ↔ 0 ∈ p.bytes := by
      simp [Path.dot, Path.slash]
    have hlong : ¬ maxPath < (Path.dot :: Path.slash :: p.bytes).length := by
      simp only [List.length_cons]
      omega
    have hshort : ¬ maxPath < p.bytes.length := by omega
    simp only [resolve, hsteps, hzero, if_neg hlong, if_neg hshort, if_neg hne,
      if_neg (List.cons_ne_nil Path.dot _)]

theorem find_fromHere (hne : p.bytes ≠ []) (hroom : p.bytes.length + 2 ≤ maxPath) :
    t.find cwd p.fromHere = t.find cwd p := by
  rw [find, find, resolve_fromHere hne hroom]

/-- Slashes in a row say no more than one. -/
theorem steps_of_slashes (front back : Bytes) (n : Nat) :
    steps ⟨front ++ (List.replicate (n + 1) Path.slash ++ back)⟩ =
      steps ⟨front ++ Path.slash :: back⟩ := by
  have habsolute (bs : Bytes) : Path.isAbsolute ⟨front ++ Path.slash :: bs⟩ =
      Path.isAbsolute ⟨front ++ Path.slash :: back⟩ := by
    cases front <;> rfl
  have hsegments (n : Nat) : Path.splitSlashes (List.replicate n Path.slash ++ back) =
      List.replicate n [] ++ Path.splitSlashes back := by
    induction n with
    | zero => rfl
    | succ n ih =>
      rw [List.replicate_succ, List.cons_append, Path.splitSlashes, if_pos rfl, ih,
        List.replicate_succ, List.cons_append]
  have hne : Path.splitSlashes back ≠ [] := by
    rw [Path.splitSlashes_eq_splitOn]
    exact List.splitOn_ne_nil _ _
  have hempty : Path.component? [] = none := rfl
  have hsplit (bs : Bytes) : Path.splitSlashes (front ++ Path.slash :: bs) =
      Path.splitSlashes front ++ Path.splitSlashes bs := by
    simp only [Path.splitSlashes_eq_splitOn, List.splitOn_append_cons_self]
  have hlast (ss : List Bytes) :
      (ss ++ Path.splitSlashes back).getLast? = (Path.splitSlashes back).getLast? :=
    List.getLast?_append_of_ne_nil ss hne
  rw [List.replicate_succ, List.cons_append]
  simp only [steps, habsolute, hsplit, hsegments, ← List.append_assoc, hlast, List.filterMap_append,
    List.filterMap_replicate_of_none hempty, List.append_nil]

/-- Slashes in a row lead where one does, unless they make the path too long. -/
theorem find_of_slashes {front back : Bytes} {n : Nat}
    (hp : p.bytes = front ++ (List.replicate (n + 1) Path.slash ++ back))
    (hshort : p.bytes.length ≤ maxPath) :
    t.find cwd p = t.find cwd ⟨front ++ Path.slash :: back⟩ := by
  obtain ⟨bytes⟩ := p
  dsimp only at hp hshort
  subst hp
  have hne : front ++ (List.replicate (n + 1) Path.slash ++ back) ≠ [] := by simp
  have hne' : front ++ Path.slash :: back ≠ [] := by simp
  have hzero : 0 ∈ front ++ (List.replicate (n + 1) Path.slash ++ back) ↔
      0 ∈ front ++ Path.slash :: back := by
    simp [Path.slash]
  have hlong : ¬ maxPath < (front ++ (List.replicate (n + 1) Path.slash ++ back)).length := by
    omega
  have hlong' : ¬ maxPath < (front ++ Path.slash :: back).length := by
    simp only [List.length_append, List.length_replicate, List.length_cons] at hshort ⊢
    omega
  simp only [find, resolve, if_neg hne, if_neg hne', hzero, if_neg hlong, if_neg hlong',
    steps_of_slashes]

/-- A path that is too long leads nowhere. -/
theorem find_of_long (t : Tree) (cwd : Location) (hlong : maxPath < p.bytes.length) : ∃ f, t.find cwd p = .error f := by
  have hne : p.bytes ≠ [] := by
    rintro hempty
    rw [hempty] at hlong
    cases hlong
  unfold find resolve
  rw [if_neg hne, if_pos hlong]
  split
  · exact ⟨_, rfl⟩
  · exact ⟨_, rfl⟩

theorem isFile_of_long (hlong : maxPath < p.bytes.length) : t.isFile cwd p = false := by
  obtain ⟨f, hf⟩ := find_of_long t cwd hlong
  simp only [isFile, hf]

theorem isDirectory_of_long (hlong : maxPath < p.bytes.length) :
    t.isDirectory cwd p = false := by
  obtain ⟨f, hf⟩ := find_of_long t cwd hlong
  simp only [isDirectory, hf]

/-- A file with `./` in front is a file without it. -/
theorem isFile_of_fromHere (hne : p.bytes ≠ []) (h : t.isFile cwd p.fromHere = true) :
    t.isFile cwd p = true := by
  cases habsolute : p.isAbsolute with
  | true => rwa [Path.fromHere_of_isAbsolute habsolute] at h
  | false =>
    by_cases hroom : p.bytes.length + 2 ≤ maxPath
    · rwa [isFile, find_fromHere hne hroom] at h
    · have hlong : maxPath < p.fromHere.bytes.length := by
        rw [Path.fromHere_of_relative habsolute]
        simp only [List.length_cons]
        omega
      rw [isFile_of_long hlong] at h
      cases h

end Tree

namespace Discovery

/-! ## Searching -/

variable {t : Tree} {cwd : Location} {p : Path}

/-- A directory with `./` in front is searched the same way. -/
theorem walk_fromHere (t : Tree) (fuel : Nat) (layers : List Layer) (l : Location)
    (spelled : Path) :
    walk t fuel layers l spelled.fromHere = (walk t fuel layers l spelled).map Path.fromHere := by
  induction fuel generalizing layers l spelled with
  | zero => rfl
  | succ fuel ih =>
    simp only [walk, Path.join_fromHere, ih, List.map_flatMap]
    refine List.flatMap_congr fun e _ => ?_
    split
    · rfl
    · split <;> rfl

/-- What is joined to a path that is not empty is not empty. -/
theorem join_ne_nil {q : Path} (h : p.bytes ≠ []) : (p.join q).bytes ≠ [] := by
  unfold Path.join
  split
  · rintro hempty
    simp_all [Path.isAbsolute]
  · split <;> simp [h]

theorem ne_nil_of_mem_walk {fuel : Nat} {layers : List Layer} {l : Location} {spelled e : Path}
    (h : spelled.bytes ≠ []) (he : e ∈ walk t fuel layers l spelled) : e.bytes ≠ [] := by
  induction fuel generalizing layers l spelled with
  | zero => cases he
  | succ fuel ih =>
    obtain ⟨⟨name, node⟩, -, he⟩ := List.mem_flatMap.1 he
    dsimp only at he
    have hjoined : (spelled.join ⟨name⟩).bytes ≠ [] := join_ne_nil h
    split at he
    · cases he
    · split at he
      · rcases List.mem_cons.1 he with rfl | he
        · exact hjoined
        · exact ih hjoined he
      · rw [List.mem_singleton.1 he]
        exact hjoined

/-- Entries are spelled by at least one byte. -/
theorem ne_nil_of_mem_entries {e : Path} (he : e ∈ entries t cwd p) : e.bytes ≠ [] := by
  unfold entries at he
  split at he
  · rename_i l hfind
    refine ne_nil_of_mem_walk (fun hempty => ?_) he
    rw [Tree.find, Tree.resolve, if_pos hempty] at hfind
    cases hfind
  · cases he

/-- Both spellings of a directory give the same entries, spelled alike. -/
theorem entries_fromHere (hne : p.bytes ≠ []) (hroom : p.bytes.length + 2 ≤ Tree.maxPath) :
    entries t cwd p.fromHere = (entries t cwd p).map Path.fromHere := by
  unfold entries
  rw [Tree.find_fromHere hne hroom]
  split
  · exact walk_fromHere t _ _ _ p
  · rfl

/-- Two bytes more keep a path and the fish files below it within the longest path. -/
def HasRoom (t : Tree) (cwd : Location) (p : Path) : Prop :=
  p.bytes.length + 2 ≤ Tree.maxPath ∧
    ∀ e ∈ filesBelow t cwd p, e.bytes.length + 2 ≤ Tree.maxPath

theorem filesBelow_fromHere (hne : p.bytes ≠ []) (hroom : HasRoom t cwd p) :
    filesBelow t cwd p.fromHere = (filesBelow t cwd p).map Path.fromHere := by
  have hkept : ∀ e ∈ entries t cwd p,
      (t.isFile cwd e.fromHere && isFishPath e.fromHere) = (t.isFile cwd e && isFishPath e) := by
    intro e he
    have hempty := ne_nil_of_mem_entries he
    rw [isFishPath_fromHere]
    cases hfish : isFishPath e with
    | false => simp
    | true =>
      cases hfile : t.isFile cwd e with
      | true =>
        have hbelow : e ∈ filesBelow t cwd p := List.mem_filter.2 ⟨he, by simp [hfile, hfish]⟩
        rw [Tree.isFile, Tree.find_fromHere hempty (hroom.2 e hbelow), ← Tree.isFile, hfile]
      | false =>
        have hnot : ¬ t.isFile cwd e.fromHere = true := fun h => by
          rw [Tree.isFile_of_fromHere hempty h] at hfile
          cases hfile
        simp [hnot]
  rw [filesBelow, entries_fromHere hne hroom.1, List.filter_map, filesBelow]
  congr 1
  exact List.filter_congr hkept

/-- Both spellings of an argument stand for the same components. -/
theorem expand_fromHere (hne : p.bytes ≠ []) (hroom : HasRoom t cwd p) :
    (expand? t cwd p.fromHere).map (·.map Path.components) =
      (expand? t cwd p).map (·.map Path.components) := by
  have hfile : t.isFile cwd p.fromHere = t.isFile cwd p := by
    rw [Tree.isFile, Tree.find_fromHere hne hroom.1, ← Tree.isFile]
  have hdirectory : t.isDirectory cwd p.fromHere = t.isDirectory cwd p := by
    rw [Tree.isDirectory, Tree.find_fromHere hne hroom.1, ← Tree.isDirectory]
  rw [expand?, hfile, hdirectory, filesBelow_fromHere hne hroom, expand?]
  split
  · simp [Path.withoutCurrent_fromHere]
  · split
    · simp [Path.withoutCurrent_fromHere]
    · rfl

end Discovery

end FishCheck
