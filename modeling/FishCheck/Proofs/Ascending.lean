import Mathlib.Data.List.Basic

/-!
# Ascending lists

Reports name things once each and in order.  Under a lawful three-way comparison such a list
is settled by its members: it does not matter in which order, or how often, they came.

Main results:

- Theorem `eq_compareLex`: the comparisons of lists that are lexicographic.
- Theorems `pairwise_mergeSort_not_gt`, `pairwise_merge_not_gt`: sorting and merging put
  nothing behind something greater.
- Theorem `Ascending.eq_of_mem_iff`: ascending lists with the same members are equal.
- Theorem `ascending_eraseDups`: a sorted list without its repetitions is ascending.
-/

namespace FishCheck

variable {α : Type} {cmp : α → α → Ordering}

/-- A list that goes up strictly under a three-way comparison. -/
def Ascending (cmp : α → α → Ordering) (l : List α) : Prop :=
  l.Pairwise fun a b => cmp a b = .lt

/-! ## Comparing lists -/

/-- A comparison that goes through two lists item by item, a proper beginning of a list before
the list, is the lexicographic one. -/
theorem eq_compareLex {f : List α → List α → Ordering} (hnil : f [] [] = .eq)
    (hshort : ∀ b bs, f [] (b :: bs) = .lt) (hlong : ∀ a as, f (a :: as) [] = .gt)
    (hcons : ∀ a as b bs, f (a :: as) (b :: bs) = (cmp a b).then (f as bs)) :
    f = List.compareLex cmp := by
  funext l l'
  induction l generalizing l' with
  | nil =>
    cases l' with
    | nil => rw [hnil, List.compareLex_nil_nil]
    | cons b bs => rw [hshort, List.compareLex_nil_cons]
  | cons a as ih =>
    cases l' with
    | nil => rw [hlong, List.compareLex_cons_nil]
    | cons b bs => rw [hcons, ih, List.compareLex_cons_cons]

/-- Comparing by what a function says of two things is lawful. -/
theorem transCmp_comap {β : Type} [Std.TransCmp cmp] (f : β → α) :
    Std.TransCmp fun a b => cmp (f a) (f b) where
  eq_swap := Std.OrientedCmp.eq_swap
  isLE_trans := Std.TransCmp.isLE_trans

/-! ## Sorting -/

theorem isLE_of_not_gt {a b : α} : (cmp a b != .gt) = (cmp a b).isLE := by
  cases cmp a b <;> rfl

section Sorting

variable [Std.TransCmp cmp]

theorem isLE_or_isLE (a b : α) : ((cmp a b).isLE || (cmp b a).isLE) = true := by
  have hswap : cmp b a = (cmp a b).swap := Std.OrientedCmp.eq_swap
  rw [hswap]
  cases cmp a b <;> rfl

/-- Sorting puts nothing behind something greater. -/
theorem pairwise_mergeSort_not_gt (l : List α) :
    (l.mergeSort fun a b => cmp a b != .gt).Pairwise fun a b => (cmp a b).isLE = true := by
  simp only [isLE_of_not_gt]
  exact List.pairwise_mergeSort (fun a b c => Std.TransCmp.isLE_trans) isLE_or_isLE l

/-- Merging ascending lists puts nothing behind something greater. -/
theorem pairwise_merge_not_gt {l l' : List α} (h : Ascending cmp l) (h' : Ascending cmp l') :
    (l.merge l' fun a b => cmp a b != .gt).Pairwise fun a b => (cmp a b).isLE = true := by
  simp only [isLE_of_not_gt]
  exact List.pairwise_merge (fun a b c => Std.TransCmp.isLE_trans) isLE_or_isLE l l'
    (h.imp fun hlt => by rw [hlt]; rfl) (h'.imp fun hlt => by rw [hlt]; rfl)

end Sorting

/-! ## Members -/

section Members

variable [Std.TransCmp cmp] {l l' : List α}

theorem Ascending.nodup (h : Ascending cmp l) : l.Nodup := by
  refine h.imp fun {a b} hlt hab => ?_
  have hself : cmp b b = .eq := Std.ReflCmp.compare_self
  rw [hab, hself] at hlt
  cases hlt

/-- Ascending lists with the same members are equal. -/
theorem Ascending.eq_of_mem_iff (h : Ascending cmp l) (h' : Ascending cmp l')
    (hmem : ∀ a, a ∈ l ↔ a ∈ l') : l = l' := by
  have hperm : l.Perm l' := (List.perm_ext_iff_of_nodup h.nodup h'.nodup).2 hmem
  refine hperm.eq_of_pairwise (fun a b _ _ hab hba => ?_) h h'
  have hswap : cmp a b = (cmp b a).swap := Std.OrientedCmp.eq_swap
  rw [hab, hba] at hswap
  cases hswap

end Members

/-! ## Repetitions -/

section Repetitions

variable [BEq α]

/-- Removing repetitions only removes things. -/
theorem eraseDups_sublist : (l : List α) → l.eraseDups.Sublist l
  | [] => by simp
  | a :: as => by
    have hfilter : (as.filter fun b => !b == a).Sublist as := List.filter_sublist
    rw [List.eraseDups_cons]
    exact ((eraseDups_sublist _).trans hfilter).cons_cons a
termination_by l => l.length
decreasing_by exact Nat.lt_succ_of_le (List.length_filter_le _ _)

variable [LawfulBEq α]

theorem nodup_eraseDups : (l : List α) → l.eraseDups.Nodup
  | [] => by simp
  | a :: as => by
    rw [List.eraseDups_cons, List.nodup_cons]
    constructor
    · rw [List.mem_eraseDups]
      simp
    · exact nodup_eraseDups _
termination_by l => l.length
decreasing_by exact Nat.lt_succ_of_le (List.length_filter_le _ _)

/-- A sorted list without its repetitions is ascending. -/
theorem ascending_eraseDups [Std.LawfulEqCmp cmp] {l : List α}
    (hl : l.Pairwise fun a b => (cmp a b).isLE = true) : Ascending cmp l.eraseDups := by
  refine ((hl.sublist (eraseDups_sublist l)).and (nodup_eraseDups l)).imp fun {a b} h => ?_
  obtain ⟨hle, hne⟩ := h
  cases hab : cmp a b with
  | lt => rfl
  | eq => exact absurd (Std.LawfulEqCmp.eq_of_compare hab) hne
  | gt =>
    rw [hab] at hle
    cases hle

end Repetitions

end FishCheck
