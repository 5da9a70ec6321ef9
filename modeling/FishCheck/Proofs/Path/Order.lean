import FishCheck.Discovery
import FishCheck.Proofs.Ascending

/-!
# The order of paths

Paths are compared component by component, components by kind and then by bytes.  This is a
lawful order on lists of components, and two paths compare equal exactly when they have the
same components.  So removing neighbours with the same components from a sorted list of paths
leaves every component list once, in ascending order.

Main results:

- Theorem `compareComponents_eq_compareLex`: component lists are compared like words in a
  dictionary.
- Theorem `Discovery.ascending_sortPaths`: sorted paths go up strictly.
- Theorem `Discovery.mem_components_sortPaths`: sorting keeps all component lists.
-/

namespace FishCheck

namespace Path

/-! ## Bytes and components -/

/-- The numbers of bytes are compared lawfully. -/
instance : Std.TransCmp fun a b : UInt8 => Ord.compare a.toNat b.toNat :=
  transCmp_comap UInt8.toNat

instance : Std.LawfulEqCmp fun a b : UInt8 => Ord.compare a.toNat b.toNat where
  compare_self := Std.ReflOrd.compare_self
  eq_of_compare h := UInt8.toNat_inj.1 (Nat.compare_eq_eq.1 h)

/-- Byte sequences are compared like words in a dictionary. -/
theorem compareBytes_eq_compareLex :
    compareBytes = List.compareLex fun a b : UInt8 => Ord.compare a.toNat b.toNat :=
  eq_compareLex rfl (fun _ _ => rfl) (fun _ _ => rfl) fun _ _ _ _ => rfl

instance : Std.TransCmp compareBytes := by
  rw [compareBytes_eq_compareLex]
  infer_instance

instance : Std.LawfulEqCmp compareBytes := by
  rw [compareBytes_eq_compareLex]
  infer_instance

/-- Components are compared by kind, then by bytes. -/
theorem Component.compare_eq_compareLex :
    Component.compare = compareLex (fun a b => Ord.compare a.rank b.rank)
      fun a b => compareBytes a.bytes b.bytes :=
  rfl

instance : Std.TransCmp Component.compare := by
  have hrank : Std.TransCmp fun a b : Component => Ord.compare a.rank b.rank :=
    transCmp_comap Component.rank
  have hbytes : Std.TransCmp fun a b : Component => compareBytes a.bytes b.bytes :=
    transCmp_comap Component.bytes
  rw [Component.compare_eq_compareLex]
  infer_instance

instance : Std.LawfulEqCmp Component.compare where
  compare_self := Std.ReflCmp.compare_self
  eq_of_compare {a b} h := by
    obtain ⟨hrank, hbytes⟩ := Ordering.then_eq_eq.1 h
    have hrank : a.rank = b.rank := Nat.compare_eq_eq.1 hrank
    have hbytes : a.bytes = b.bytes := Std.LawfulEqCmp.eq_of_compare hbytes
    cases a <;> cases b <;> simp_all [Component.rank, Component.bytes]

/-! ## Paths -/

/-- Component lists are compared like words in a dictionary. -/
theorem compareComponents_eq_compareLex :
    compareComponents = List.compareLex Component.compare :=
  eq_compareLex rfl (fun _ _ => rfl) (fun _ _ => rfl) fun _ _ _ _ => rfl

instance : Std.TransCmp compareComponents := by
  rw [compareComponents_eq_compareLex]
  infer_instance

instance : Std.LawfulEqCmp compareComponents := by
  rw [compareComponents_eq_compareLex]
  infer_instance

instance : Std.TransCmp Path.compare := transCmp_comap components

/-- A path comes before another one when it does not come behind it and has other
components. -/
theorem compare_eq_lt {p q : Path} (hle : (p.compare q).isLE = true) (hne : p.same q = false) :
    p.compare q = .lt := by
  cases h : p.compare q with
  | lt => rfl
  | eq =>
    have hsame : p.components = q.components := Std.LawfulEqCmp.eq_of_compare h
    simp [same, hsame] at hne
  | gt =>
    rw [h] at hle
    cases hle

end Path

namespace Discovery

/-! ## Sorting -/

/-- Neighbours with the same components are the only repetitions of a sorted list. -/
theorem ascending_dropRepetitions {ps : List Path}
    (hps : ps.Pairwise fun p q => (p.compare q).isLE = true) :
    Ascending Path.compare (dropRepetitions ps) := by
  induction ps using dropRepetitions.induct with
  | case1 =>
    rw [dropRepetitions]
    exact List.Pairwise.nil
  | case2 p =>
    rw [dropRepetitions]
    exact List.pairwise_singleton _ p
  | case3 p q rest hsame ih =>
    rw [dropRepetitions, if_pos hsame]
    exact ih (hps.sublist ((List.sublist_cons_self q rest).cons_cons p))
  | case4 p q rest hsame ih =>
    rw [dropRepetitions, if_neg hsame]
    obtain ⟨hp, hrest⟩ := List.pairwise_cons.1 hps
    have hpq : p.compare q = .lt := Path.compare_eq_lt (hp q (by simp)) (by simpa using hsame)
    refine List.pairwise_cons.2 ⟨fun r hr => ?_, ih hrest⟩
    -- what is left comes behind its first path, which comes behind `p`
    rcases List.mem_cons.1 (mem_of_mem_dropRepetitions hr) with rfl | hr
    · exact hpq
    · exact Std.TransCmp.lt_of_lt_of_isLE hpq ((List.pairwise_cons.1 hrest).1 r hr)

/-- Removing repetitions keeps all component lists. -/
theorem mem_components_dropRepetitions {c : List Path.Component} {ps : List Path} :
    c ∈ (dropRepetitions ps).map Path.components ↔ c ∈ ps.map Path.components := by
  induction ps using dropRepetitions.induct with
  | case1 => rw [dropRepetitions]
  | case2 p => rw [dropRepetitions]
  | case3 p q rest hsame ih =>
    have hpq : p.components = q.components := of_decide_eq_true hsame
    rw [dropRepetitions, if_pos hsame, ih]
    simp [hpq]
  | case4 p q rest hsame ih =>
    rw [dropRepetitions, if_neg hsame, List.map_cons, List.map_cons, List.mem_cons,
      List.mem_cons, ih]

/-- Sorted paths go up strictly. -/
theorem ascending_sortPaths (ps : List Path) : Ascending Path.compare (sortPaths ps) :=
  ascending_dropRepetitions (pairwise_mergeSort_not_gt ps)

/-- Sorting keeps all component lists. -/
theorem mem_components_sortPaths {c : List Path.Component} {ps : List Path} :
    c ∈ (sortPaths ps).map Path.components ↔ c ∈ ps.map Path.components := by
  rw [sortPaths, mem_components_dropRepetitions]
  exact ((List.mergeSort_perm ps precedes).map Path.components).mem_iff

end Discovery

end FishCheck
