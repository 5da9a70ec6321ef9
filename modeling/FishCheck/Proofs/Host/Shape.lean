import FishCheck.Host.Tree

/-!
# Shapes of trees

The shape of a tree is what is left of it when the contents of its files are forgotten.
Where a path leads depends on the shape alone, so writing into a file that is there moves no
path.  Only what is read at a path depends on the contents, and then on one content only.

Main results:

- Theorem `find_shape`: a path leads to the same place in a tree and in its shape.
- Theorem `shape_put_file`: a new content for a file that is there keeps the shape.
- Theorem `read_eq_of_shape`: trees of one shape agree on what they read at a path if they
  agree on the file there.
- Theorem `write_of_fileAt`: writing at the path of a file changes that file and no other
  one.
-/

namespace FishCheck

/-! ## Nodes and tables -/

/-- A node without the content of its file. -/
def Node.shape : Node → Node
  | .file _ executable => .file [] executable
  | n => n

theorem Node.shape_eq_directory_iff {n : Node} : n.shape = .directory ↔ n = .directory := by
  cases n <;> simp [shape]

theorem Table.get_map {κ α β : Type} [DecidableEq κ] (ps : List (κ × α)) (f : α → β) (k : κ) :
    (Table.mk (ps.map fun e => (e.1, f e.2))).get? k = ((Table.mk ps).get? k).map f := by
  simp only [Table.get?, List.find?_map, Option.map_map]
  rfl

/-- Setting a key to a value that looks the same through a function changes nothing that is
seen through it. -/
theorem Table.map_set {κ α β : Type} [DecidableEq κ] {t : Table κ α} {k : κ} {a b : α} {f : α → β}
    (hk : t.get? k = some a) (hf : f b = f a) :
    ((t.set k b).pairs.map fun e => (e.1, f e.2)) = t.pairs.map fun e => (e.1, f e.2) := by
  obtain ⟨ps⟩ := t
  simp only [set]
  induction ps with
  | nil => cases hk
  | cons p ps ih =>
    by_cases hp : p.1 = k
    · have ha : p.2 = a := by simpa [Table.get?, hp] using hk
      simp [setPair, hp, ha, hf]
    · have hrest : (Table.mk ps).get? k = some a := by simpa [Table.get?, hp] using hk
      simp [setPair, hp, ih hrest]

namespace Tree

/-! ## The shape of a tree -/

/-- A tree without the contents of its files. -/
def shape (t : Tree) : Tree := ⟨⟨t.nodes.pairs.map fun e => (e.1, e.2.shape)⟩⟩

/-- A spot without the content of the file there. -/
def Spot.shape (spot : Spot) : Spot := ⟨spot.location, spot.node?.map Node.shape⟩

theorem node_shape (t : Tree) (l : Location) : t.shape.node? l = (t.node? l).map Node.shape := by
  unfold node?
  split
  · rfl
  · exact Table.get_map t.nodes.pairs Node.shape l

/-- A path is followed without a look at contents. -/
theorem follow_shape (t : Tree) (last : Bool) (links : Nat) (here : Location)
    (path : List Path.Component) :
    t.shape.follow last links here path =
      (t.follow last links here path).map Spot.shape := by
  induction links, here, path using follow.induct t last with
  | case1 links here => simp [follow, Except.map, Spot.shape, node_shape]
  | case2 links here rest ih => rw [follow, follow, ih]
  | case3 links here rest ih => rw [follow, follow, ih]
  | case4 links here rest ih => rw [follow, follow, ih]
  | case5 links here n rest hname => simp [follow, hname, Except.map]
  | case6 links here n rest hname there hnode hrest =>
    have hnode : t.node? (here ++ [n]) = none := hnode
    simp [follow, hname, node_shape, hnode, hrest, Except.map, Spot.shape]
  | case7 links here n rest hname there hnode hrest =>
    have hnode : t.node? (here ++ [n]) = none := hnode
    simp [follow, hname, node_shape, hnode, hrest, Except.map]
  | case8 links here n rest hname there hnode ih =>
    have hnode : t.node? (here ++ [n]) = some .directory := hnode
    rw [follow, follow]
    simpa [hname, node_shape, hnode, Node.shape] using ih
  | case9 links here n rest hname there target hnode hlast =>
    have hnode : t.node? (here ++ [n]) = some (.link target) := hnode
    simp [follow, hname, node_shape, hnode, hlast, Node.shape, Except.map, Spot.shape]
  | case10 here n rest hname there target hnode hlast =>
    have hnode : t.node? (here ++ [n]) = some (.link target) := hnode
    have hlast : ¬ (rest = [] ∧ last = false) := by simpa using hlast
    rw [follow, follow]
    simp [hname, node_shape, hnode, hlast, Node.shape, Except.map]
  | case11 here n rest hname there target hnode hlast links ih =>
    have hnode : t.node? (here ++ [n]) = some (.link target) := hnode
    have hlast : ¬ (rest = [] ∧ last = false) := by simpa using hlast
    rw [follow, follow]
    simpa [hname, node_shape, hnode, hlast, Node.shape] using ih
  | case12 links here n rest hname there node hdirectory hlink hnode hrest =>
    have hnode : t.node? (here ++ [n]) = some node := hnode
    cases node with
    | directory => exact absurd rfl hdirectory
    | link target => exact absurd rfl (hlink target)
    | _ => simp [follow, hname, node_shape, hnode, hrest, Node.shape, Except.map, Spot.shape]
  | case13 links here n rest hname there node hdirectory hlink hnode hrest =>
    have hnode : t.node? (here ++ [n]) = some node := hnode
    cases node with
    | directory => exact absurd rfl hdirectory
    | link target => exact absurd rfl (hlink target)
    | _ => simp [follow, hname, node_shape, hnode, hrest, Node.shape, Except.map]

/-- What is found at the end of a path is the node at that place. -/
theorem node_of_follow {t : Tree} {last : Bool} {links : Nat} {here : Location}
    {path : List Path.Component} {spot : Spot} (h : t.follow last links here path = .ok spot) :
    spot.node? = t.node? spot.location := by
  fun_induction follow t last links here path
  case case1 => cases h; rfl
  case case2 ih => exact ih h
  case case3 ih => exact ih h
  case case4 ih => exact ih h
  case case6 hnode _ => cases h; exact hnode.symm
  case case8 ih => exact ih h
  case case9 hnode _ => cases h; exact hnode.symm
  case case11 ih => exact ih h
  case case12 hnode _ => cases h; exact hnode.symm
  all_goals cases h

theorem resolve_shape (t : Tree) (cwd : Location) (p : Path) (last : Bool) :
    t.shape.resolve cwd p last = (t.resolve cwd p last).map Spot.shape := by
  unfold resolve
  split
  · rfl
  split
  · rfl
  split
  · rfl
  exact follow_shape ..

/-- A path leads to the same place in a tree and in its shape. -/
theorem find_shape (t : Tree) (cwd : Location) (p : Path) :
    t.shape.find cwd p = (t.find cwd p).map fun e => (e.1, e.2.shape) := by
  rw [find, find, resolve_shape]
  cases t.resolve cwd p true with
  | error f => rfl
  | ok spot => cases hnode : spot.node? <;> simp [Except.map, Except.bind, Spot.shape, hnode]

theorem node_of_find {t : Tree} {cwd : Location} {p : Path} {l : Location} {n : Node}
    (h : t.find cwd p = .ok (l, n)) : t.node? l = some n := by
  unfold find at h
  cases hresolve : t.resolve cwd p true with
  | error f => simp [hresolve, Except.bind] at h
  | ok spot =>
    have hnode : spot.node? = t.node? spot.location := by
      unfold resolve at hresolve
      split at hresolve
      · cases hresolve
      split at hresolve
      · cases hresolve
      split at hresolve
      · cases hresolve
      exact node_of_follow hresolve
    simp only [hresolve, Except.bind] at h
    split at h
    · rename_i n' hn'
      cases h
      rw [← hnode, hn']
    · cases h

/-! ## Questions that the shape answers -/

theorem present_shape (t : Tree) (cwd : Location) (p : Path) :
    t.shape.present cwd p = t.present cwd p := by
  rw [present, present, find_shape]
  cases t.find cwd p <;> rfl

theorem isFile_shape (t : Tree) (cwd : Location) (p : Path) :
    t.shape.isFile cwd p = t.isFile cwd p := by
  rw [isFile, isFile, find_shape]
  cases t.find cwd p with
  | error f => rfl
  | ok e => obtain ⟨l, n⟩ := e; cases n <;> rfl

theorem isDirectory_shape (t : Tree) (cwd : Location) (p : Path) :
    t.shape.isDirectory cwd p = t.isDirectory cwd p := by
  rw [isDirectory, isDirectory, find_shape]
  cases t.find cwd p with
  | error f => rfl
  | ok e => obtain ⟨l, n⟩ := e; cases n <;> rfl

theorem children_shape (t : Tree) (l : Location) :
    t.shape.children l = (t.children l).map fun e => (e.1, e.2.shape) := by
  simp only [children, shape, List.filterMap_map, List.map_filterMap]
  congr 1
  funext e
  simp only [Function.comp_apply]
  split
  · split <;> rfl
  · rfl

/-- Where the file is that a path leads to. -/
def fileAt? (t : Tree) (cwd : Location) (p : Path) : Option Location :=
  match t.find cwd p with
  | .ok (l, .file _ _) => some l
  | _ => none

theorem fileAt_shape (t : Tree) (cwd : Location) (p : Path) :
    t.shape.fileAt? cwd p = t.fileAt? cwd p := by
  rw [fileAt?, fileAt?, find_shape]
  cases t.find cwd p with
  | error f => rfl
  | ok e => obtain ⟨l, n⟩ := e; cases n <;> rfl

theorem fileAt_eq_some_iff {t : Tree} {cwd : Location} {p : Path} {l : Location} :
    t.fileAt? cwd p = some l ↔
      ∃ content executable, t.find cwd p = .ok (l, .file content executable) := by
  unfold fileAt?
  split
  · rename_i k content executable hfind
    simp [hfind]
  · rename_i hno
    simp only [reduceCtorEq, false_iff, not_exists]
    intro content executable hfind
    exact hno l content executable hfind

/-! ## Trees of one shape -/

section SameShape

variable {t t' : Tree} {cwd : Location} {p : Path}

theorem fileAt_eq_of_shape (h : t'.shape = t.shape) : t'.fileAt? cwd p = t.fileAt? cwd p := by
  rw [← fileAt_shape t', h, fileAt_shape]

theorem isFile_eq_of_shape (h : t'.shape = t.shape) : t'.isFile cwd p = t.isFile cwd p := by
  rw [← isFile_shape t', h, isFile_shape]

/-- What is read at a path is the content of the file there, or else a matter of the
shape. -/
theorem read_eq (t : Tree) (cwd : Location) (p : Path) :
    t.read cwd p = match t.fileAt? cwd p with
      | some l => match t.node? l with
        | some (.file content _) => .ok content
        | _ => t.shape.read cwd p
      | none => t.shape.read cwd p := by
  unfold fileAt?
  cases hfind : t.find cwd p with
  | error f => simp [read, find_shape, hfind, Except.map]
  | ok e =>
    obtain ⟨l, n⟩ := e
    have hnode : t.node? l = some n := node_of_find hfind
    cases n <;> simp [read, find_shape, hfind, Except.map, hnode, Node.shape]

/-- Trees of one shape read the same at a path if they have the same file there. -/
theorem read_eq_of_shape (h : t'.shape = t.shape)
    (hnode : ∀ l, t.fileAt? cwd p = some l → t'.node? l = t.node? l) :
    t'.read cwd p = t.read cwd p := by
  rw [read_eq t', read_eq t, fileAt_eq_of_shape h, h]
  cases hat : t.fileAt? cwd p with
  | none => rfl
  | some l => simp only [hnode l hat]

/-- What is read at the path of a file is its content. -/
theorem read_of_fileAt {l : Location} {content : Bytes} {executable : Bool}
    (hat : t.fileAt? cwd p = some l) (hnode : t.node? l = some (.file content executable)) :
    t.read cwd p = .ok content := by
  rw [read_eq, hat]
  simp only [hnode]

end SameShape

/-! ## Writing -/

/-- The root is no file. -/
theorem ne_root_of_file {t : Tree} {l : Location} {content : Bytes} {executable : Bool}
    (h : t.node? l = some (.file content executable)) : l ≠ [] := by
  rintro rfl
  simp [node?] at h

/-- The tree with another content for a file that is there. -/
theorem shape_put_file {t : Tree} {l : Location} {old : Bytes} {executable : Bool}
    (h : t.node? l = some (.file old executable)) (content : Bytes) :
    (t.put l (.file content executable)).shape = t.shape := by
  rw [node?, if_neg (ne_root_of_file h)] at h
  have hpairs := Table.map_set (b := .file content executable) (f := Node.shape) h rfl
  simp only [shape, put, hpairs]

theorem node_put {t : Tree} {l : Location} (hl : l ≠ []) (n : Node) (k : Location) :
    (t.put l n).node? k = if k = l then some n else t.node? k := by
  by_cases hk : k = l
  · rw [hk, if_pos rfl, node_put_self t hl]
  · simp only [node?, put, Table.get_set, hk, if_false]

/-- Writing at the path of a file changes that file and no other one. -/
theorem write_of_fileAt {t : Tree} {cwd : Location} {p : Path} {l : Location}
    (h : t.fileAt? cwd p = some l) (content : Bytes) :
    ∃ old executable, t.node? l = some (.file old executable) ∧
      t.write cwd p content = .ok (t.put l (.file content executable)) := by
  obtain ⟨old, executable, hfind⟩ := fileAt_eq_some_iff.1 h
  refine ⟨old, executable, node_of_find hfind, ?_⟩
  unfold find at hfind
  cases hresolve : t.resolve cwd p true with
  | error f => simp [hresolve, Except.bind] at hfind
  | ok spot =>
    obtain ⟨k, n?⟩ := spot
    cases n? with
    | none => simp [hresolve, Except.bind] at hfind
    | some n =>
      simp only [hresolve, Except.bind, Except.ok.injEq, Prod.mk.injEq] at hfind
      obtain ⟨rfl, rfl⟩ := hfind
      simp only [write, hresolve]

/-- What was written to the file at a path is read there. -/
theorem read_of_write {t t' : Tree} {cwd : Location} {p : Path} {l : Location} {content : Bytes}
    (hat : t.fileAt? cwd p = some l) (hwrite : t.write cwd p content = .ok t') :
    t'.read cwd p = .ok content := by
  obtain ⟨old, executable, hnode, hput⟩ := write_of_fileAt hat content
  obtain rfl : t.put l (.file content executable) = t' := Except.ok.inj (hput.symm.trans hwrite)
  have hshape := shape_put_file hnode content
  exact read_of_fileAt ((fileAt_eq_of_shape hshape).trans hat)
    (node_put_self t (ne_root_of_file hnode) (.file content executable))

end Tree

end FishCheck
